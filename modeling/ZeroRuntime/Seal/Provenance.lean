import ZeroRuntime.Seal.Authority

/-!
# ZeroRuntime.Seal.Provenance

Where a completion authority comes from, after any calls of the boundary and any objects forged
beside it.

* `call_cases`: what one call can do. A registry grows by the object the call itself made.
* `Chain`: the four calls behind an authority, each in the past of the next.
* `completion_provenance`: an accepted authority has its chain, and where none of its calls was
  given `None` for an identifier, all four objects carry the same task, package and session.
-/

namespace ZeroRuntime
namespace Seal

open Lib

/-! ## One call -/

/-- What a call can do, with the checks it passed. -/
theorem call_cases (b : Boundary) (c : Call) :
    (call b c).2 = b ∨ (∃ o, (call b c).2 = b.make o) ∨
    (∃ authority, (call b c).2 =
      { b with evidenceAuthorities := b.evidenceAuthorities ++ authority }) ∨
    (∃ o, (call b c).2 = { b.make o with
      packageCompletions := b.packageCompletions ++ [b.objects.length] }) ∨
    (∃ task session package execution capability,
      c = .issueDispatch .runtimeDispatcher task session package execution capability ∧
      call b c = (.ok (some b.objects.length),
        { b.make (.executionCapability
            { taskId := task.toText, sessionId := session.toText, packageId := package.toText
              executionId := execution.toText, capabilityId := capability.toText }) with
          dispatchCapabilities := b.dispatchCapabilities ++ [b.objects.length] })) ∨
    (∃ capability task step dispatch, c = .delegate .taskRunner capability task step ∧
      b.executionCapability? capability = some dispatch ∧
      b.isDispatchExecutionCapability capability task = true ∧
      call b c = (.ok (some b.objects.length),
        { b.make (.executionCapability
            { taskId := task.toText, sessionId := dispatch.sessionId
              packageId := dispatch.packageId, stepId := step.toText, delegated := true
              executionId := dispatch.executionId, capabilityId := dispatch.capabilityId }) with
          delegatedCapabilities := b.delegatedCapabilities ++ [b.objects.length] })) ∨
    (∃ capability task package session step delegated,
      c = .issueEvidence .taskRunner capability task package session step ∧
      b.executionCapability? capability = some delegated ∧
      b.isTaskrunnerExecutionCapability capability task step package session = true ∧
      call b c = (.ok (some b.objects.length),
        { b.make (.terminalEvidence
            { taskId := task.toText, packageId := package.toText, sessionId := session.toText
              stepId := step.toText, executionId := delegated.executionId
              capabilityId := delegated.capabilityId
              evidenceId := "evidence:" ++ delegated.executionId ++ ":" ++ step.toText }) with
          terminalEvidence := b.terminalEvidence ++ [b.objects.length] })) ∨
    (∃ task package session evidence,
      c = .issueCompletion .taskRunner task package session evidence ∧
      b.isTerminalExecutionEvidence evidence task package session = true ∧
      call b c = (.ok (some b.objects.length),
        { b.make (.taskCompletion
            { taskId := task.toText, packageId := package.toText, sessionId := session.toText }) with
          taskCompletions := b.taskCompletions ++ [b.objects.length] })) := by
  cases c with
  | forge o => exact .inr (.inl ⟨o, rfl⟩)
  | copy value =>
    cases h : b.objects[value]? with
    | none => exact .inl (by simp only [call, h])
    | some o => exact .inr (.inl ⟨o, by simp only [call, h]⟩)
  | issueDispatch token task session package execution capability =>
    by_cases htoken : token = .runtimeDispatcher
    · subst htoken
      refine .inr (.inr (.inr (.inr (.inl ⟨task, session, package, execution, capability, rfl, ?_⟩))))
      simp [call, Boundary.issueDispatchExecutionCapability, Boundary.make]
    · exact .inl (by simp [call, Boundary.issueDispatchExecutionCapability, htoken])
  | delegate token capability task step =>
    by_cases htoken : token = .taskRunner
    · subst htoken
      cases hc : b.executionCapability? capability with
      | none => exact .inl (by simp [call, Boundary.delegateTaskrunnerExecutionCapability, hc])
      | some dispatch =>
        cases hlive : b.isDispatchExecutionCapability capability task with
        | false =>
          exact .inl (by simp [call, Boundary.delegateTaskrunnerExecutionCapability, hc, hlive])
        | true =>
          refine .inr (.inr (.inr (.inr (.inr (.inl
            ⟨capability, task, step, dispatch, rfl, hc, hlive, ?_⟩)))))
          simp [call, Boundary.delegateTaskrunnerExecutionCapability, hc, hlive, Boundary.make]
    · exact .inl (by simp [call, Boundary.delegateTaskrunnerExecutionCapability, htoken])
  | issueEvidence token capability task package session step =>
    by_cases htoken : token = .taskRunner
    · subst htoken
      cases hc : b.executionCapability? capability with
      | none => exact .inl (by simp [call, Boundary.issueTerminalExecutionEvidence, hc])
      | some delegated =>
        cases hlive : b.isTaskrunnerExecutionCapability capability task step package session with
        | false =>
          exact .inl (by simp [call, Boundary.issueTerminalExecutionEvidence, hc, hlive])
        | true =>
          refine .inr (.inr (.inr (.inr (.inr (.inr (.inl
            ⟨capability, task, package, session, step, delegated, rfl, hc, hlive, ?_⟩))))))
          simp [call, Boundary.issueTerminalExecutionEvidence, hc, hlive, Boundary.make]
    · exact .inl (by simp [call, Boundary.issueTerminalExecutionEvidence, htoken])
  | issueCompletion token task package session evidence =>
    by_cases htoken : token = .taskRunner
    · subst htoken
      cases hlive : b.isTerminalExecutionEvidence evidence task package session with
      | false => exact .inl (by simp [call, Boundary.issueTaskCompletionAuthority, hlive])
      | true =>
        refine .inr (.inr (.inr (.inr (.inr (.inr (.inr
          ⟨task, package, session, evidence, rfl, hlive, ?_⟩))))))
        simp [call, Boundary.issueTaskCompletionAuthority, hlive, Boundary.make]
    · exact .inl (by simp [call, Boundary.issueTaskCompletionAuthority, htoken])
  | issuePackageCompletion token package session =>
    by_cases htoken : token ≠ .runtimeDispatcher ∧ token ≠ .workPackageScheduler
    · exact .inl (by simp [call, Boundary.issueWorkPackageCompletionAuthority, htoken])
    · refine .inr (.inr (.inr (.inl ⟨.workPackageCompletion
        { packageId := package.toText, sessionId := (session.orElse (.str "")).toText }, ?_⟩)))
      simp only [call, Boundary.issueWorkPackageCompletionAuthority, if_neg htoken, Boundary.make]
  | registerEvidence token authority =>
    by_cases htoken : token = .governedRuntimeEvidence
    · subst htoken
      exact .inr (.inr (.inl ⟨authority.toList, by
        simp [call, Boundary.registerRuntimeEvidenceAuthority]⟩))
    · exact .inl (by simp [call, Boundary.registerRuntimeEvidenceAuthority, htoken])

/-- Objects are made, never changed. -/
theorem objects_call (b : Boundary) (c : Call) : b.objects <+: (call b c).2.objects := by
  rcases call_cases b c with h | ⟨o, h⟩ | ⟨_, h⟩ | ⟨o, h⟩ | ⟨_, _, _, _, _, -, h⟩ |
    ⟨_, _, _, _, -, -, -, h⟩ | ⟨_, _, _, _, _, _, -, -, -, h⟩ | ⟨_, _, _, _, -, -, h⟩ <;> rewrite [h]
  · exact List.prefix_refl _
  · exact List.prefix_append _ _
  · exact List.prefix_refl _
  all_goals exact List.prefix_append _ _

variable {before calls : List Call}

theorem objects_run (h : before <+: calls) (b : Boundary) :
    (authorityBoundary.run b before).objects <+: (authorityBoundary.run b calls).objects := by
  obtain ⟨rest, rfl⟩ := h
  rw [Machine.run_append]
  have hstep : ∀ s c, (authorityBoundary.run b before).objects <+: s.objects →
      (authorityBoundary.run b before).objects <+: (authorityBoundary.step s c).2.objects :=
    fun s c hs => hs.trans (objects_call s c)
  exact Machine.run_invariant hstep rest (List.prefix_refl _)

/-! ## What an object carries -/

/-- A task, a package and a session. -/
structure Lineage where
  taskId : String
  packageId : String
  sessionId : String
deriving DecidableEq

def Object.lineage? : Object → Option Lineage
  | .executionCapability c => some ⟨c.taskId, c.packageId, c.sessionId⟩
  | .taskCompletion a => some ⟨a.taskId, a.packageId, a.sessionId⟩
  | .terminalEvidence e => some ⟨e.taskId, e.packageId, e.sessionId⟩
  | _ => none

def Boundary.lineage? (b : Boundary) (r : Ref) : Option Lineage :=
  b.objects[r]?.bind Object.lineage?

variable {r : Ref}

theorem lineage_run (h : before <+: calls) {l : Lineage}
    (hl : (authorityBoundary.run {} before).lineage? r = some l) :
    (authorityBoundary.run {} calls).lineage? r = some l := by
  obtain ⟨rest, hrest⟩ := objects_run h {}
  unfold Boundary.lineage? at hl ⊢
  obtain ⟨o, ho, hlo⟩ := Option.bind_eq_some_iff.mp hl
  have hlt : r < (authorityBoundary.run {} before).objects.length :=
    (List.getElem?_eq_some_iff.mp ho).1
  rw [← hrest, List.getElem?_append_left hlt, ho]
  exact hlo

/-- The object a call makes carries what the call gave it. -/
theorem lineage_make (b : Boundary) (o : Object) :
    (b.make o).lineage? b.objects.length = o.lineage? := by
  simp [Boundary.lineage?, Boundary.make]

/-- An identifier passed on from one object to the next by a call that was given `given`: unless
that is `None`, the two objects agree. -/
def Follows (given : Val) (source target : String) : Prop :=
  target = given.toText ∧ (given ≠ .none → source = target)

theorem follows_of_agrees {given : Val} {source : String} (h : agrees given source = true) :
    Follows given source given.toText := by
  refine ⟨rfl, fun hgiven => ?_⟩
  cases given with
  | none => exact absurd rfl hgiven
  | _ => exact of_decide_eq_true h

/-! ## Registries -/

/-- The call made the object `r`, right after the calls `before`. -/
def Issued (calls before : List Call) (c : Call) (r : Ref) : Prop :=
  before ++ [c] <+: calls ∧ (call (authorityBoundary.run {} before) c).1 = .ok (some r)

theorem Issued.begins {c : Call} (h : Issued calls before c r) : before <+: calls :=
  (List.prefix_append before [c]).trans h.1

/-- The lineage of an object, from the call that made it. -/
theorem Issued.lineage {c : Call} {l : Lineage} (h : Issued calls before c r)
    (hl : (call (authorityBoundary.run {} before) c).2.lineage? r = some l) :
    (authorityBoundary.run {} calls).lineage? r = some l := by
  apply lineage_run h.1
  rw [Machine.run_snoc]
  exact hl

variable {registry : List Ref}

/-- A registry grew by the object the call made. -/
theorem new_mem {n : Ref} (hr : r ∈ registry ++ [n]) (hnew : r ∉ registry) : r = n := by
  rcases List.mem_append.mp hr with h | h
  · exact absurd h hnew
  · exact List.mem_singleton.mp h

variable {b : Boundary}

theorem Issued.of_new {c : Call} {n : Ref} (hpre : before ++ [c] <+: calls)
    (hb : call (authorityBoundary.run {} before) c = (.ok (some n), b)) (hr : r ∈ registry ++ [n])
    (hnew : r ∉ registry) : r = n ∧ Issued calls before c r := by
  obtain rfl := new_mem hr hnew
  exact ⟨rfl, hpre, by rw [hb]⟩

/-- A registered authority was issued from evidence that was accepted at the time. -/
theorem completion_issued (h : r ∈ (authorityBoundary.run {} calls).taskCompletions) :
    ∃ before task package session evidence,
      Issued calls before (.issueCompletion .taskRunner task package session evidence) r ∧
      (authorityBoundary.run {} before).isTerminalExecutionEvidence evidence task package session
        = true ∧
      (authorityBoundary.run {} calls).lineage? r =
        some ⟨task.toText, package.toText, session.toText⟩ := by
  obtain ⟨before, c, hpre, hnew, hr⟩ :=
    Machine.run_origin (P := fun b : Boundary => r ∈ b.taskCompletions) (by simp) h
  replace hr : r ∈ (call (authorityBoundary.run {} before) c).2.taskCompletions := hr
  rcases call_cases (authorityBoundary.run {} before) c with hb | ⟨o, hb⟩ | ⟨_, hb⟩ | ⟨o, hb⟩ |
    ⟨_, _, _, _, _, -, hb⟩ | ⟨_, _, _, _, -, -, -, hb⟩ | ⟨_, _, _, _, _, _, -, -, -, hb⟩ |
    ⟨task, package, session, evidence, rfl, hlive, hb⟩
  iterate 7 rw [hb] at hr; exact absurd hr hnew
  rw [hb] at hr
  obtain ⟨hrn, hissued⟩ := Issued.of_new hpre hb hr hnew
  refine ⟨before, task, package, session, evidence, hissued, hlive, hissued.lineage ?_⟩
  rw [hb, hrn]
  exact lineage_make _ _

theorem evidence_issued (h : r ∈ (authorityBoundary.run {} calls).terminalEvidence) :
    ∃ before capability task package session step,
      Issued calls before (.issueEvidence .taskRunner capability task package session step) r ∧
      (authorityBoundary.run {} before).isTaskrunnerExecutionCapability capability task step
        package session = true ∧
      (authorityBoundary.run {} calls).lineage? r =
        some ⟨task.toText, package.toText, session.toText⟩ := by
  obtain ⟨before, c, hpre, hnew, hr⟩ :=
    Machine.run_origin (P := fun b : Boundary => r ∈ b.terminalEvidence) (by simp) h
  replace hr : r ∈ (call (authorityBoundary.run {} before) c).2.terminalEvidence := hr
  rcases call_cases (authorityBoundary.run {} before) c with hb | ⟨o, hb⟩ | ⟨_, hb⟩ | ⟨o, hb⟩ |
    ⟨_, _, _, _, _, -, hb⟩ | ⟨_, _, _, _, -, -, -, hb⟩ |
    ⟨capability, task, package, session, step, delegated, rfl, -, hlive, hb⟩ |
    ⟨_, _, _, _, -, -, hb⟩
  case inr.inr.inr.inr.inr.inr.inl =>
    rw [hb] at hr
    obtain ⟨hrn, hissued⟩ := Issued.of_new hpre hb hr hnew
    refine ⟨before, capability, task, package, session, step, hissued, hlive,
      hissued.lineage ?_⟩
    rw [hb, hrn]
    exact lineage_make _ _
  all_goals rw [hb] at hr; exact absurd hr hnew

theorem delegated_issued (h : r ∈ (authorityBoundary.run {} calls).delegatedCapabilities) :
    ∃ before capability task step dispatch,
      Issued calls before (.delegate .taskRunner capability task step) r ∧
      (authorityBoundary.run {} before).executionCapability? capability = some dispatch ∧
      (authorityBoundary.run {} before).isDispatchExecutionCapability capability task = true ∧
      (authorityBoundary.run {} calls).lineage? r =
        some ⟨task.toText, dispatch.packageId, dispatch.sessionId⟩ := by
  obtain ⟨before, c, hpre, hnew, hr⟩ :=
    Machine.run_origin (P := fun b : Boundary => r ∈ b.delegatedCapabilities) (by simp) h
  replace hr : r ∈ (call (authorityBoundary.run {} before) c).2.delegatedCapabilities := hr
  rcases call_cases (authorityBoundary.run {} before) c with hb | ⟨o, hb⟩ | ⟨_, hb⟩ | ⟨o, hb⟩ |
    ⟨_, _, _, _, _, -, hb⟩ | ⟨capability, task, step, dispatch, rfl, hc, hlive, hb⟩ |
    ⟨_, _, _, _, _, _, -, -, -, hb⟩ | ⟨_, _, _, _, -, -, hb⟩
  case inr.inr.inr.inr.inr.inl =>
    rw [hb] at hr
    obtain ⟨hrn, hissued⟩ := Issued.of_new hpre hb hr hnew
    refine ⟨before, capability, task, step, dispatch, hissued, hc, hlive, hissued.lineage ?_⟩
    rw [hb, hrn]
    exact lineage_make _ _
  all_goals rw [hb] at hr; exact absurd hr hnew

theorem dispatch_issued (h : r ∈ (authorityBoundary.run {} calls).dispatchCapabilities) :
    ∃ before task session package execution capability,
      Issued calls before
        (.issueDispatch .runtimeDispatcher task session package execution capability) r := by
  obtain ⟨before, c, hpre, hnew, hr⟩ :=
    Machine.run_origin (P := fun b : Boundary => r ∈ b.dispatchCapabilities) (by simp) h
  replace hr : r ∈ (call (authorityBoundary.run {} before) c).2.dispatchCapabilities := hr
  rcases call_cases (authorityBoundary.run {} before) c with hb | ⟨o, hb⟩ | ⟨_, hb⟩ | ⟨o, hb⟩ |
    ⟨task, session, package, execution, capability, rfl, hb⟩ | ⟨_, _, _, _, -, -, -, hb⟩ |
    ⟨_, _, _, _, _, _, -, -, -, hb⟩ | ⟨_, _, _, _, -, -, hb⟩
  case inr.inr.inr.inr.inl =>
    rw [hb] at hr
    exact ⟨before, task, session, package, execution, capability,
      (Issued.of_new hpre hb hr hnew).2⟩
  all_goals rw [hb] at hr; exact absurd hr hnew

/-! ## Checks -/

variable {value : Option Ref}

theorem registered_iff :
    Boundary.registered registry value = true ↔ ∃ r, value = some r ∧ r ∈ registry := by
  cases value <;> simp [Boundary.registered]

variable {c : RuntimeExecutionCapability}

theorem executionCapability_lineage (h : b.executionCapability? (some r) = some c) :
    b.lineage? r = some ⟨c.taskId, c.packageId, c.sessionId⟩ := by
  unfold Boundary.executionCapability? Boundary.object? at h
  unfold Boundary.lineage?
  split at h
  next c' hobject =>
    cases h
    simp only [Option.bind_some] at hobject
    rw [hobject]
    rfl
  next => cases h

/-- A completion authority that is accepted is registered, and carries what was asked for. -/
theorem completion_accepted {task package session : Val}
    (h : b.isTaskCompletionAuthority value task package session = true) :
    ∃ r l, value = some r ∧ r ∈ b.taskCompletions ∧ b.lineage? r = some l ∧
      agrees task l.taskId = true ∧ agrees package l.packageId = true ∧
      agrees session l.sessionId = true := by
  unfold Boundary.isTaskCompletionAuthority at h
  split at h
  next a hobject =>
    simp only [Bool.and_eq_true] at h
    obtain ⟨⟨⟨hreg, htask⟩, hpackage⟩, hsession⟩ := h
    obtain ⟨r, rfl, hr⟩ := registered_iff.mp hreg
    refine ⟨r, ⟨a.taskId, a.packageId, a.sessionId⟩, rfl, hr, ?_, htask, hpackage, hsession⟩
    simp only [Boundary.object?, Option.bind_some] at hobject
    rw [Boundary.lineage?, hobject]
    rfl
  next => cases h

theorem evidence_accepted {task package session : Val}
    (h : b.isTerminalExecutionEvidence value task package session = true) :
    ∃ r l, value = some r ∧ r ∈ b.terminalEvidence ∧ b.lineage? r = some l ∧
      agrees task l.taskId = true ∧ agrees package l.packageId = true ∧
      agrees session l.sessionId = true := by
  unfold Boundary.isTerminalExecutionEvidence at h
  split at h
  next e hobject =>
    simp only [Bool.and_eq_true] at h
    obtain ⟨⟨⟨hreg, htask⟩, hpackage⟩, hsession⟩ := h
    obtain ⟨r, rfl, hr⟩ := registered_iff.mp hreg
    refine ⟨r, ⟨e.taskId, e.packageId, e.sessionId⟩, rfl, hr, ?_, htask, hpackage, hsession⟩
    simp only [Boundary.object?, Option.bind_some] at hobject
    rw [Boundary.lineage?, hobject]
    rfl
  next => cases h

theorem delegated_accepted {task step package session : Val}
    (h : b.isTaskrunnerExecutionCapability value task step package session = true) :
    ∃ r l, value = some r ∧ r ∈ b.delegatedCapabilities ∧ b.lineage? r = some l ∧
      agrees task l.taskId = true ∧ agrees package l.packageId = true ∧
      agrees session l.sessionId = true := by
  unfold Boundary.isTaskrunnerExecutionCapability at h
  split at h
  next c hobject =>
    simp only [Bool.and_eq_true] at h
    obtain ⟨⟨⟨⟨⟨hreg, -⟩, htask⟩, -⟩, hpackage⟩, hsession⟩ := h
    obtain ⟨r, rfl, hr⟩ := registered_iff.mp hreg
    exact ⟨r, _, rfl, hr, executionCapability_lineage hobject, htask, hpackage, hsession⟩
  next => cases h

theorem dispatch_accepted {task : Val} (hc : b.executionCapability? value = some c)
    (h : b.isDispatchExecutionCapability value task = true) :
    ∃ r, value = some r ∧ r ∈ b.dispatchCapabilities ∧
      b.lineage? r = some ⟨c.taskId, c.packageId, c.sessionId⟩ ∧ agrees task c.taskId = true := by
  unfold Boundary.isDispatchExecutionCapability at h
  rw [hc] at h
  simp only [Bool.and_eq_true] at h
  obtain ⟨⟨hreg, -⟩, htask⟩ := h
  obtain ⟨r, rfl, hr⟩ := registered_iff.mp hreg
  exact ⟨r, rfl, hr, executionCapability_lineage hc, htask⟩

/-! ## The chain -/

/-- The calls behind a completion authority, each in the past of the one after it. -/
structure Chain (calls : List Call) (authority : Ref) where
  beforeCompletion : List Call
  completionTask : Val
  completionPackage : Val
  completionSession : Val
  evidence : Ref
  completed : Issued calls beforeCompletion (.issueCompletion .taskRunner completionTask
    completionPackage completionSession (some evidence)) authority
  beforeEvidence : List Call
  evidenceTask : Val
  evidencePackage : Val
  evidenceSession : Val
  evidenceStep : Val
  delegated : Ref
  recorded : Issued beforeCompletion beforeEvidence (.issueEvidence .taskRunner (some delegated)
    evidenceTask evidencePackage evidenceSession evidenceStep) evidence
  beforeDelegate : List Call
  delegateTask : Val
  delegateStep : Val
  dispatch : Ref
  handedOn : Issued beforeEvidence beforeDelegate (.delegate .taskRunner (some dispatch)
    delegateTask delegateStep) delegated
  beforeDispatch : List Call
  dispatchTask : Val
  dispatchSession : Val
  dispatchPackage : Val
  execution : Val
  capability : Val
  dispatched : Issued beforeDelegate beforeDispatch (.issueDispatch .runtimeDispatcher dispatchTask
    dispatchSession dispatchPackage execution capability) dispatch

namespace Chain

variable {calls : List Call} {authority : Ref}

/-- None of the calls that compare an identifier was given `None` for it. -/
structure Named (chain : Chain calls authority) : Prop where
  delegateTask : chain.delegateTask ≠ .none
  evidenceTask : chain.evidenceTask ≠ .none
  evidencePackage : chain.evidencePackage ≠ .none
  evidenceSession : chain.evidenceSession ≠ .none
  completionTask : chain.completionTask ≠ .none
  completionPackage : chain.completionPackage ≠ .none
  completionSession : chain.completionSession ≠ .none

/-- What the dispatch capability, the delegated one, the evidence and the authority carry, link by
link. -/
structure Carries (chain : Chain calls authority) (l₀ l₁ l₂ l₃ : Lineage) : Prop where
  dispatch : (authorityBoundary.run {} calls).lineage? chain.dispatch = some l₀
  delegated : (authorityBoundary.run {} calls).lineage? chain.delegated = some l₁
  evidence : (authorityBoundary.run {} calls).lineage? chain.evidence = some l₂
  authority : (authorityBoundary.run {} calls).lineage? authority = some l₃
  delegatedTask : Follows chain.delegateTask l₀.taskId l₁.taskId
  delegatedPackage : l₀.packageId = l₁.packageId
  delegatedSession : l₀.sessionId = l₁.sessionId
  evidenceTask : Follows chain.evidenceTask l₁.taskId l₂.taskId
  evidencePackage : Follows chain.evidencePackage l₁.packageId l₂.packageId
  evidenceSession : Follows chain.evidenceSession l₁.sessionId l₂.sessionId
  completionTask : Follows chain.completionTask l₂.taskId l₃.taskId
  completionPackage : Follows chain.completionPackage l₂.packageId l₃.packageId
  completionSession : Follows chain.completionSession l₂.sessionId l₃.sessionId

theorem Carries.same {chain : Chain calls authority} {l₀ l₁ l₂ l₃ : Lineage}
    (h : chain.Carries l₀ l₁ l₂ l₃) (named : chain.Named) : l₀ = l₃ ∧ l₁ = l₃ ∧ l₂ = l₃ := by
  have h₂ : l₂ = l₃ := by
    cases l₂
    cases l₃
    rw [Lineage.mk.injEq]
    exact ⟨h.completionTask.2 named.completionTask, h.completionPackage.2 named.completionPackage,
      h.completionSession.2 named.completionSession⟩
  have h₁ : l₁ = l₂ := by
    cases l₁
    cases l₂
    rw [Lineage.mk.injEq]
    exact ⟨h.evidenceTask.2 named.evidenceTask, h.evidencePackage.2 named.evidencePackage,
      h.evidenceSession.2 named.evidenceSession⟩
  have h₀ : l₀ = l₁ := by
    cases l₀
    cases l₁
    rw [Lineage.mk.injEq]
    exact ⟨h.delegatedTask.2 named.delegateTask, h.delegatedPackage, h.delegatedSession⟩
  exact ⟨h₀.trans (h₁.trans h₂), h₁.trans h₂, h₂⟩

end Chain

/-- A completion authority that is accepted was issued from terminal evidence recorded under a
capability that was delegated from a dispatch capability. Along each link an identifier the call
was given is carried on unchanged, so that where none was `None` the four objects carry one task,
package and session. -/
theorem completion_provenance (calls : List Call) (authority : Ref) (task package session : Val)
    (accepted : (authorityBoundary.run {} calls).isTaskCompletionAuthority (some authority) task
      package session = true) :
    ∃ (chain : Chain calls authority) (l₀ l₁ l₂ l : Lineage), chain.Carries l₀ l₁ l₂ l ∧
      agrees task l.taskId = true ∧ agrees package l.packageId = true ∧
      agrees session l.sessionId = true ∧ (chain.Named → l₀ = l ∧ l₁ = l ∧ l₂ = l) := by
  obtain ⟨_, l, ⟨⟩, hcompletion, hl, htask, hpackage, hsession⟩ := completion_accepted accepted
  obtain ⟨beforeCompletion, task₃, package₃, session₃, _, hcompleted, hlive₃, hl₃⟩ :=
    completion_issued hcompletion
  obtain ⟨evidence, l₂, rfl, hevidence, hle, htask₃, hpackage₃, hsession₃⟩ :=
    evidence_accepted hlive₃
  obtain ⟨beforeEvidence, _, task₂, package₂, session₂, step₂, hrecorded, hlive₂, hl₂⟩ :=
    evidence_issued hevidence
  obtain ⟨delegated, l₁, rfl, hdelegated, hld, htask₂, hpackage₂, hsession₂⟩ :=
    delegated_accepted hlive₂
  obtain ⟨beforeDelegate, _, task₁, step₁, c, hhanded, hc, hlive₁, hl₁⟩ :=
    delegated_issued hdelegated
  obtain ⟨dispatch, rfl, hdispatch, hlc, htask₁⟩ := dispatch_accepted hc hlive₁
  obtain ⟨beforeDispatch, task₀, session₀, package₀, execution, capability, hdispatched⟩ :=
    dispatch_issued hdispatch
  -- what an object carries when it is made is what the next call finds
  obtain rfl := Option.some.inj (hl₃.symm.trans hl)
  obtain rfl := Option.some.inj (hl₂.symm.trans hle)
  obtain rfl := Option.some.inj (hl₁.symm.trans hld)
  have hbegins₂ := hrecorded.begins.trans hcompleted.begins
  have hbegins₁ := hhanded.begins.trans hbegins₂
  let chain : Chain calls authority :=
    ⟨beforeCompletion, task₃, package₃, session₃, evidence, hcompleted, beforeEvidence, task₂,
      package₂, session₂, step₂, delegated, hrecorded, beforeDelegate, task₁, step₁, dispatch,
      hhanded, beforeDispatch, task₀, session₀, package₀, execution, capability, hdispatched⟩
  have hcarries : chain.Carries ⟨c.taskId, c.packageId, c.sessionId⟩ _ _ _ :=
    { dispatch := lineage_run hbegins₁ hlc
      delegated := lineage_run hbegins₂ hld
      evidence := lineage_run hcompleted.begins hle
      authority := hl
      delegatedTask := follows_of_agrees htask₁
      delegatedPackage := rfl
      delegatedSession := rfl
      evidenceTask := follows_of_agrees htask₂
      evidencePackage := follows_of_agrees hpackage₂
      evidenceSession := follows_of_agrees hsession₂
      completionTask := follows_of_agrees htask₃
      completionPackage := follows_of_agrees hpackage₃
      completionSession := follows_of_agrees hsession₃ }
  exact ⟨chain, _, _, _, _, hcarries, htask, hpackage, hsession, hcarries.same⟩

/-- A task completed in due order. -/
def completedRun : List Call :=
  [.issueDispatch .runtimeDispatcher (.str "t1") (.str "s1") (.str "p1") (.str "e1") (.str "c1"),
    .delegate .taskRunner (some 0) (.str "t1") (.str "step"),
    .issueEvidence .taskRunner (some 1) (.str "t1") (.str "p1") (.str "s1") (.str "step"),
    .issueCompletion .taskRunner (.str "t1") (.str "p1") (.str "s1") (some 2)]

theorem completion_provenance_completedRun :
    ∃ (chain : Chain completedRun 3) (l₀ l₁ l₂ l : Lineage), chain.Carries l₀ l₁ l₂ l ∧
      agrees (.str "t1") l.taskId = true ∧ agrees (.str "p1") l.packageId = true ∧
      agrees (.str "s1") l.sessionId = true ∧ (chain.Named → l₀ = l ∧ l₁ = l ∧ l₂ = l) :=
  completion_provenance completedRun 3 (.str "t1") (.str "p1") (.str "s1") (by decide)

/-- A runner that passes `None` for the task when it delegates completes another task than the one
that was dispatched. -/
theorem completed_undispatched :
    ∃ calls authority,
      (authorityBoundary.run {} calls).isTaskCompletionAuthority (some authority) (.str "None")
        (.str "p1") (.str "s1") = true ∧
      ∀ r ∈ (authorityBoundary.run {} calls).dispatchCapabilities,
        (authorityBoundary.run {} calls).lineage? r ≠
          (authorityBoundary.run {} calls).lineage? authority :=
  ⟨[.issueDispatch .runtimeDispatcher (.str "t1") (.str "s1") (.str "p1") (.str "e1") (.str "c1"),
    .delegate .taskRunner (some 0) .none (.str "step"),
    .issueEvidence .taskRunner (some 1) (.str "None") (.str "p1") (.str "s1") (.str "step"),
    .issueCompletion .taskRunner (.str "None") (.str "p1") (.str "s1") (some 2)], 3, by decide⟩

end Seal
end ZeroRuntime
