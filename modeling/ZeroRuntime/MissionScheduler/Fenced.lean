import ZeroRuntime.Lib.Digest
import ZeroRuntime.Lib.Machine
import ZeroRuntime.MissionScheduler.Leases

/-!
# ZeroRuntime.MissionScheduler.Fenced

A lease of a mission and those who have held one before.

* `World`: the state of the scheduler, the iterations whose driver is running, and the history of
  grants, which numbers them and says which one the lease of an entry is of.
* `Fenced`: a step leases no entry whose lease has not run out, and a step of a holder whose grant
  is over leaves the entry as it is.
* `Timely` is the condition: no iteration comes back from its driver once its grant is over, and no
  holder releases a grant that is over while the entry is leased to the same owner again, in the
  same second.
* `fenced_of_timely`: in a run of timely steps every step is fenced, and no grant ends twice.
-/

namespace ZeroRuntime
namespace MissionScheduler

open Lib Sessions

structure Grant where
  entryId : String
  leaseId : String
  owner : String
  acquiredAt : ℕ
deriving DecidableEq, Repr

structure World where
  state : SchedulerState
  running : List (ℕ × Dispatch)
  grants : List Grant
  holder : String → Option ℕ

/-- A release is called by the holder of a grant, or by someone else. -/
inductive Step where
  | enqueue (path : String) (mission : Except Raised MissionFile) (priority : ℤ) (now : Instant)
  | request (action : Action) (now : Instant)
  | lease (owner : String) (leaseSeconds : ℤ) (now : Instant)
  | release (caller : Option ℕ) (entryId leaseId owner : String) (next : EntryStatus) (now : Instant)
  | recover (now : Instant)
  | start (owner : String) (leaseSeconds : ℤ) (now : Instant) (started : Published)
  | finish (index : ℕ) (driver : Except Raised Entries) (ended failed : Published) (now : Instant)

def Step.now : Step → Instant
  | .enqueue _ _ _ now => now
  | .request _ now => now
  | .lease _ _ now => now
  | .release _ _ _ _ _ now => now
  | .recover now => now
  | .start _ _ now _ => now
  | .finish _ _ _ _ now => now

section Digest

variable (F : SchedulerDigest)

/-- A call that raises leaves the state to its caller as it was. -/
def orKept (s : SchedulerState) (answer : Except Raised SchedulerState) : SchedulerState :=
  match answer with
  | .ok s' => s'
  | .error _ => s

def stateAfter (w : World) : Step → SchedulerState
  | .enqueue path mission priority now =>
    orKept w.state (enqueueMission F w.state path mission priority now)
  | .request action now => requestAction F w.state action now
  | .lease owner leaseSeconds now =>
    orKept w.state ((leaseNextMission F w.state owner leaseSeconds now).map Prod.fst)
  | .release _ entryId leaseId owner next now =>
    orKept w.state (releaseMissionLease F w.state entryId leaseId owner next now)
  | .recover now => (recoverExpiredLeases F w.state now).1
  | .start owner leaseSeconds now started =>
    (startIteration F w.state owner leaseSeconds now started).1
  | .finish index driver ended failed now =>
    match w.running[index]? with
    | some (_, d) => (finishIteration F w.state d driver ended failed now).1
    | none => w.state

def handedOut (w : World) : Step → Option (String × MissionLease)
  | .lease owner leaseSeconds now => leasing F w.state owner leaseSeconds now
  | .start owner leaseSeconds now _ => starting F w.state owner leaseSeconds now
  | _ => none

def Step.leaseOwner : Step → String
  | .lease owner _ _ => Text.strip owner
  | .start owner _ _ _ => Text.strip owner
  | _ => ""

def runningAfter (w : World) : Step → List (ℕ × Dispatch)
  | .start owner leaseSeconds now started =>
    match (startIteration F w.state owner leaseSeconds now started).2 with
    | .ok (some d) => w.running ++ [(w.grants.length, d)]
    | _ => w.running
  | .finish index _ _ _ _ => w.running.eraseIdx index
  | _ => w.running

/-- The grant an entry's lease is of, after a step that hands out `granted`. -/
def holderAfter (w : World) (s : SchedulerState) (granted : Option (String × MissionLease))
    (id : String) : Option ℕ :=
  if granted.map Prod.fst = some id then some w.grants.length
  else if (s.entries.get? id).all fun e => e.lease.isNone then none
  else w.holder id

def World.step (w : World) (st : Step) : World where
  state := stateAfter F w st
  running := runningAfter F w st
  grants := w.grants ++ ((handedOut F w st).map fun p =>
    { entryId := p.1, leaseId := p.2.leaseId.toText, owner := st.leaseOwner
      acquiredAt := timeText st.now : Grant }).toList
  holder := holderAfter w (stateAfter F w st) (handedOut F w st)

def fencing : Machine World Step Unit where
  step w st := ((), w.step F st)

/-- The grant whose holder takes the step. -/
def World.actor (w : World) : Step → Option ℕ
  | .release caller entryId leaseId _ _ _ =>
    caller.filter fun n =>
      (w.grants[n]?).any fun g => g.entryId = entryId && g.leaseId = leaseId
  | .finish index _ _ _ _ => (w.running[index]?).map Prod.fst
  | _ => none

/-- The grant is over: the lease of its entry is not of it. -/
def World.over (w : World) (n : ℕ) : Prop :=
  ∃ g, w.grants[n]? = some g ∧ w.holder g.entryId ≠ some n

structure Fenced (w : World) (st : Step) : Prop where
  exclusive : ∀ id lease, handedOut F w st = some (id, lease) → ∀ e old,
    w.state.entries.get? id = some e → e.lease = some old → isExpired (some old) st.now = true
  fenced : ∀ n g, w.actor st = some n → w.grants[n]? = some g → w.holder g.entryId ≠ some n →
    (w.step F st).state.entries.get? g.entryId = w.state.entries.get? g.entryId

/-- The condition on a step, in the world it is taken in. -/
def Timely (w : World) : Step → Prop
  | .release caller entryId leaseId _ _ _ =>
    ∀ n ∈ caller, ∀ g ∈ w.grants[n]?, g.entryId = entryId → g.leaseId = leaseId →
      ∀ m ∈ w.holder entryId, ∀ g' ∈ w.grants[m]?, m ≠ n →
        ¬(g'.owner = g.owner ∧ g'.acquiredAt = g.acquiredAt)
  | .finish index _ _ _ _ => ∀ p ∈ w.running[index]?, w.holder p.2.entryId = some p.1
  | _ => True

instance (w : World) : (st : Step) → Decidable (Timely w st)
  | .release caller entryId leaseId _ _ _ =>
    inferInstanceAs (Decidable (∀ n ∈ caller, ∀ g ∈ w.grants[n]?, g.entryId = entryId →
      g.leaseId = leaseId → ∀ m ∈ w.holder entryId, ∀ g' ∈ w.grants[m]?, m ≠ n →
        ¬(g'.owner = g.owner ∧ g'.acquiredAt = g.acquiredAt)))
  | .finish index _ _ _ _ =>
    inferInstanceAs (Decidable (∀ p ∈ w.running[index]?, w.holder p.2.entryId = some p.1))
  | .enqueue .. | .request .. | .lease .. | .recover _ | .start .. => .isTrue trivial

def World.ends (w : World) (st : Step) : Option ℕ :=
  (w.actor st).filter fun n =>
    (w.grants[n]?).any fun g =>
      w.holder g.entryId = some n && (w.step F st).holder g.entryId ≠ some n

/-- The grants that the steps of a run end, in order. -/
def endings (w : World) : List Step → List ℕ
  | [] => []
  | st :: sts => (w.ends F st).toList ++ endings (w.step F st) sts

end Digest

variable {F : SchedulerDigest} {w : World} {st : Step}

/-! ## The invariant -/

variable (F) in
structure Recorded (w : World) : Prop where
  tidy : Tidy w.state
  held : ∀ id e l, w.state.entries.get? id = some e → e.lease = some l →
    ∃ n g, w.holder id = some n ∧ w.grants[n]? = some g ∧ g.entryId = id ∧
      l.leaseId = .str g.leaseId
  identified : ∀ g ∈ w.grants, g.leaseId = leaseIdOf F
    { schedulerId := w.state.schedulerId, entryId := g.entryId, owner := g.owner
      acquiredAt := g.acquiredAt }
  running : ∀ n d, (n, d) ∈ w.running → ∃ g, w.grants[n]? = some g ∧ g.entryId = d.entryId

theorem keeps_orKept {s : SchedulerState} {answer : Except Raised SchedulerState} (h : Tidy s)
    (hok : ∀ s', answer = .ok s' → Keeps s s') : Keeps s (orKept s answer) := by
  cases answer with
  | error e => exact h.keeps
  | ok s' => exact hok s' rfl

/-- A step leaves all leases alone, or hands out one that is fresh. -/
theorem stateAfter_leases (h : Tidy w.state) (st : Step) :
    (handedOut F w st = none ∧ Keeps w.state (stateAfter F w st)) ∨
      ∃ id lease, handedOut F w st = some (id, lease) ∧
        Grants w.state (stateAfter F w st) id lease ∧
        lease.leaseId = .str (leaseIdOf F
          { schedulerId := w.state.schedulerId, entryId := id, owner := st.leaseOwner
            acquiredAt := timeText st.now }) ∧
        ∀ e old, w.state.entries.get? id = some e → e.lease = some old →
          isExpired (some old) st.now = true := by
  cases st with
  | enqueue path mission priority now =>
    exact .inl ⟨rfl, keeps_orKept h fun s' hs' => keeps_enqueue h hs'⟩
  | request action now => exact .inl ⟨rfl, keeps_request h⟩
  | lease owner leaseSeconds now =>
    rcases @leasing_ok F w.state now owner leaseSeconds h with
      ⟨hnone, hkeeps⟩ | ⟨e, lease, hrecovered, he, hleasing, -, hgrant, hfresh⟩
    · refine .inl ⟨hnone, keeps_orKept h fun s' hs' => ?_⟩
      cases hlease : leaseNextMission F w.state owner leaseSeconds now with
      | error e => rw [hlease] at hs'; cases hs'
      | ok answer =>
        rw [hlease] at hs'
        cases hs'
        exact (hkeeps answer.1 answer.2 hlease).2
    · refine .inr ⟨e.entryId, lease, hleasing, ?_, hfresh.identified, hfresh.expired⟩
      change Grants w.state (orKept w.state
        ((leaseNextMission F w.state owner leaseSeconds now).map Prod.fst)) e.entryId lease
      rw [hgrant]
      exact grants_grant hrecovered
  | release caller entryId leaseId owner next now =>
    exact .inl ⟨rfl, keeps_orKept h fun s' hs' => keeps_release h.keeps hs'⟩
  | recover now => exact .inl ⟨rfl, keeps_recover h⟩
  | start owner leaseSeconds now started =>
    rcases @startIteration_leases F w.state now owner leaseSeconds started h with
      ⟨hnone, hkeeps, -⟩ | ⟨id, lease, hstarting, hgrants, hfresh, -⟩
    · exact .inl ⟨hnone, hkeeps⟩
    · exact .inr ⟨id, lease, hstarting, hgrants, hfresh.identified, hfresh.expired⟩
  | finish index driver ended failed now =>
    refine .inl ⟨rfl, ?_⟩
    unfold stateAfter
    dsimp only
    split
    · exact keeps_finish h
    · exact h.keeps

variable {n : ℕ}

theorem runningAfter_ok (h : Recorded F w) {d : Dispatch} (hd : (n, d) ∈ runningAfter F w st) :
    ∃ g, (w.step F st).grants[n]? = some g ∧ g.entryId = d.entryId := by
  have hold : (n, d) ∈ w.running →
      ∃ g, (w.step F st).grants[n]? = some g ∧ g.entryId = d.entryId := by
    intro hmem
    obtain ⟨g, hg, hid⟩ := h.running n d hmem
    obtain ⟨hlt, -⟩ := List.getElem?_eq_some_iff.mp hg
    exact ⟨g, (List.getElem?_append_left hlt).trans hg, hid⟩
  cases st with
  | start owner leaseSeconds now started =>
    change (n, d) ∈ (match (startIteration F w.state owner leaseSeconds now started).2 with
      | .ok (some d) => w.running ++ [(w.grants.length, d)]
      | _ => w.running) at hd
    split at hd
    · rename_i d' hanswer
      rcases List.mem_append.mp hd with hmem | hnew
      · exact hold hmem
      · cases List.mem_singleton.mp hnew
        rcases @startIteration_leases F w.state now owner leaseSeconds started h.tidy with
          ⟨-, -, hnone⟩ | ⟨id, lease, hstarting, -, -, hdispatch⟩
        · exact absurd hanswer (hnone d)
        · obtain ⟨hid, -⟩ := hdispatch d hanswer
          refine ⟨⟨id, lease.leaseId.toText, Text.strip owner, timeText now⟩, ?_, hid.symm⟩
          change (w.grants ++ ((starting F w.state owner leaseSeconds now).map _).toList)[
            w.grants.length]? = _
          rw [hstarting]
          exact List.getElem?_concat_length
    · exact hold hd
  | finish index driver ended failed now => exact hold (List.mem_of_mem_eraseIdx hd)
  | _ => exact hold hd

theorem grants_step_old {g : Grant} (hg : w.grants[n]? = some g) :
    (w.step F st).grants[n]? = some g := by
  obtain ⟨hlt, -⟩ := List.getElem?_eq_some_iff.mp hg
  exact (List.getElem?_append_left hlt).trans hg

theorem holder_kept {id : String} {e : Entry} {l : MissionLease}
    (hnone : (handedOut F w st).map Prod.fst ≠ some id)
    (he : (stateAfter F w st).entries.get? id = some e) (hl : e.lease = some l) :
    (w.step F st).holder id = w.holder id := by
  change holderAfter w (stateAfter F w st) (handedOut F w st) id = w.holder id
  unfold holderAfter
  rw [if_neg hnone, he, Option.all_some, hl, Option.isNone_some, if_neg Bool.false_ne_true]

theorem recorded_step (h : Recorded F w) (st : Step) : Recorded F (w.step F st) := by
  have hkept : ∀ {id : String} {e' : Entry} {l : MissionLease},
      (handedOut F w st).map Prod.fst ≠ some id →
      (stateAfter F w st).entries.get? id = some e' → e'.lease = some l →
      (e'.lease = none ∨ ∃ e, w.state.entries.get? id = some e ∧ e'.lease = e.lease) →
      ∃ n g, (w.step F st).holder id = some n ∧ (w.step F st).grants[n]? = some g ∧
        g.entryId = id ∧ l.leaseId = .str g.leaseId := by
    intro id e' l hnone he' hl hcase
    rcases hcase with hfree | ⟨e, he, hsame⟩
    · rw [hl] at hfree
      cases hfree
    · obtain ⟨n, g, hholder, hg, hid, hlease⟩ := h.held id e l he (hsame ▸ hl)
      exact ⟨n, g, (holder_kept hnone he' hl).trans hholder, grants_step_old hg, hid, hlease⟩
  rcases @stateAfter_leases F w h.tidy st with
    ⟨hnone, hkeeps⟩ | ⟨id, lease, hout, hgrants, hlease, -⟩
  · have hmap : ∀ id, (handedOut F w st).map Prod.fst ≠ some id := by
      intro id
      rw [hnone]
      exact fun h => by cases h
    refine ⟨hkeeps.tidy, ?_, ?_, fun n d hd => runningAfter_ok h hd⟩
    · exact fun id e' l he' hl => hkept (hmap id) he' hl (hkeeps.lease id e' he')
    · intro g hg
      have hold : g ∈ w.grants := by
        rcases List.mem_append.mp hg with hold | hnew
        · exact hold
        · rw [hnone] at hnew
          cases hnew
      change g.leaseId = leaseIdOf F
        { schedulerId := (stateAfter F w st).schedulerId, entryId := g.entryId, owner := g.owner
          acquiredAt := g.acquiredAt }
      rw [hkeeps.scheduler]
      exact h.identified g hold
  · have hnew : (w.step F st).grants = w.grants ++
        [⟨id, lease.leaseId.toText, st.leaseOwner, timeText st.now⟩] := by
      change w.grants ++ ((handedOut F w st).map _).toList = _
      rw [hout]
      rfl
    refine ⟨hgrants.tidy, ?_, ?_, fun n d hd => runningAfter_ok h hd⟩
    · intro id' e' l he' hl
      by_cases hid : id' = id
      · subst hid
        obtain ⟨e, he, hentry⟩ := hgrants.entry
        rw [show (w.step F st).state.entries.get? id' = some e from he] at he'
        cases he'
        obtain rfl : l = lease := Option.some.inj (hl.symm.trans hentry)
        refine ⟨w.grants.length, ⟨id', l.leaseId.toText, st.leaseOwner, timeText st.now⟩, ?_, ?_,
          rfl, ?_⟩
        · change holderAfter w (stateAfter F w st) (handedOut F w st) id' = _
          unfold holderAfter
          rw [hout]
          exact if_pos rfl
        · rw [hnew]
          exact List.getElem?_concat_length
        · rw [hlease]
          rfl
      · refine hkept ?_ he' hl (hgrants.other id' e' hid he')
        rw [hout, Option.map_some]
        exact fun hsame => hid (Option.some.inj hsame).symm
    · intro g hg
      change g.leaseId = leaseIdOf F
        { schedulerId := (stateAfter F w st).schedulerId, entryId := g.entryId, owner := g.owner
          acquiredAt := g.acquiredAt }
      rw [hgrants.scheduler]
      rw [hnew] at hg
      rcases List.mem_append.mp hg with hold | hfresh
      · exact h.identified g hold
      · cases List.mem_singleton.mp hfresh
        dsimp only
        rw [hlease]
        rfl

/-! ## One step -/

theorem eq_of_eq_str {v : Val} {x y : String} (hv : v = .str x) (h : v.eq (.str y) = true) :
    x = y := by
  rw [hv] at h
  exact eq_of_beq h

theorem leaseError_none {lease : Option MissionLease} {leaseId owner : String}
    (h : leaseError lease leaseId owner = none) :
    ∃ l, lease = some l ∧ l.leaseId.eq (.str leaseId) = true := by
  unfold leaseError at h
  cases lease with
  | none => cases h
  | some l =>
    refine ⟨l, rfl, ?_⟩
    dsimp only at h
    by_contra hid
    rw [Bool.not_eq_true] at hid
    rw [hid, if_pos rfl] at h
    cases h

theorem fenced_step (hF : Function.Injective F.leaseIdentity) (h : Recorded F w)
    (htimely : Timely w st) : Fenced F w st := by
  refine ⟨?_, ?_⟩
  · intro id lease hout e old he hold
    rcases @stateAfter_leases F w h.tidy st with
      ⟨hnone, -⟩ | ⟨id', lease', hout', -, -, hexpired⟩
    · rw [hnone] at hout
      cases hout
    · rw [hout'] at hout
      cases hout
      exact hexpired e old he hold
  · intro n g hactor hg hover
    cases st with
    | release caller entryId leaseId owner next now =>
      change caller.filter _ = some n at hactor
      obtain ⟨hcaller, hids⟩ := Option.filter_eq_some_iff.mp hactor
      rw [hg, Option.any_some, Bool.and_eq_true, decide_eq_true_eq, decide_eq_true_eq] at hids
      obtain ⟨hid, hleaseId⟩ := hids
      change (orKept w.state (releaseMissionLease F w.state entryId leaseId owner next
        now)).entries.get? g.entryId = w.state.entries.get? g.entryId
      cases hrelease : releaseMissionLease F w.state entryId leaseId owner next now with
      | error e => rfl
      | ok s' =>
        exfalso
        unfold releaseMissionLease at hrelease
        split at hrelease
        · cases hrelease
        rename_i e he
        split at hrelease
        · cases hrelease
        rename_i herror
        obtain ⟨l, hl, heq⟩ := leaseError_none herror
        obtain ⟨m, g', hholder, hg', hid', hlease⟩ := h.held entryId e l he hl
        have hsame := eq_of_eq_str hlease heq
        rw [h.identified g' (List.mem_of_getElem? hg'), ← hleaseId,
          h.identified g (List.mem_of_getElem? hg)] at hsame
        have hidentity := hF (String.append_right_inj _ |>.mp hsame)
        have hne : m ≠ n := by
          rintro rfl
          rw [hid] at hover
          exact hover hholder
        exact htimely n hcaller g hg hid hleaseId m hholder g' hg' hne
          ⟨congrArg LeaseIdentity.owner hidentity, congrArg LeaseIdentity.acquiredAt hidentity⟩
    | finish index driver ended failed now =>
      change (w.running[index]?).map Prod.fst = some n at hactor
      obtain ⟨⟨n', d⟩, hd, rfl⟩ := Option.map_eq_some_iff.mp hactor
      obtain ⟨g', hg', hid⟩ := h.running n' d (List.mem_of_getElem? hd)
      rw [show w.grants[n']? = some g from hg] at hg'
      cases hg'
      rw [hid] at hover
      exact absurd (htimely (n', d) hd) hover
    | _ => cases hactor

/-! ## Runs -/

theorem over_step (h : w.over n) : (w.step F st).over n := by
  obtain ⟨g, hg, hover⟩ := h
  refine ⟨g, grants_step_old hg, ?_⟩
  obtain ⟨hlt, -⟩ := List.getElem?_eq_some_iff.mp hg
  change holderAfter w (stateAfter F w st) (handedOut F w st) g.entryId ≠ some n
  unfold holderAfter
  split
  · intro hsame
    have hlength := Option.some.inj hsame
    omega
  · split
    · exact fun hsame => by cases hsame
    · exact hover

theorem ends_some (h : w.ends F st = some n) :
    ∃ g, w.grants[n]? = some g ∧ w.holder g.entryId = some n ∧
      (w.step F st).holder g.entryId ≠ some n := by
  obtain ⟨-, hany⟩ := Option.filter_eq_some_iff.mp h
  cases hg : w.grants[n]? with
  | none =>
    rw [hg] at hany
    cases hany
  | some g =>
    rw [hg, Option.any_some, Bool.and_eq_true, decide_eq_true_eq, decide_eq_true_eq] at hany
    exact ⟨g, rfl, hany⟩

/-- The induction is on the steps; what a later step ends is not over before. -/
theorem endings_nodup (w : World) (sts : List Step) :
    (endings F w sts).Nodup ∧ ∀ n ∈ endings F w sts, ¬w.over n := by
  induction sts generalizing w with
  | nil => exact ⟨List.nodup_nil, fun n hn => by cases hn⟩
  | cons st sts ih =>
    obtain ⟨hnodup, hlater⟩ := ih (w.step F st)
    have hrest : ∀ n ∈ endings F (w.step F st) sts, ¬w.over n :=
      fun n hn hover => hlater n hn (over_step hover)
    unfold endings
    cases hends : w.ends F st with
    | none => exact ⟨hnodup, hrest⟩
    | some n =>
      obtain ⟨g, hg, hbefore, hafter⟩ := ends_some hends
      refine ⟨List.nodup_cons.mpr ⟨fun hn => hlater n hn ?_, hnodup⟩, fun m hm => ?_⟩
      · exact ⟨g, grants_step_old hg, hafter⟩
      · rcases List.mem_cons.mp hm with rfl | hm
        · rintro ⟨g', hg', hover⟩
          rw [hg] at hg'
          cases hg'
          exact hover hbefore
        · exact hrest m hm

/-- Nothing is enqueued, and nothing was granted. -/
def World.init (s : SchedulerState) : World := ⟨s, [], [], fun _ => none⟩

theorem recorded_init {id name : String} {now : Instant} {s : SchedulerState}
    (h : createState F id name now = .ok s) : Recorded F (World.init s) := by
  unfold createState at h
  dsimp only at h
  split at h
  · cases h
  · cases h
    refine ⟨⟨?_, ?_⟩, ?_, ?_, ?_⟩
    · exact fun id e he => by cases he
    · exact fun id e he => by cases he
    · exact fun id e l he => by cases he
    · exact fun g hg => by cases hg
    · exact fun n d hd => by cases hd

/-- In a run of timely steps every step is fenced, and no grant is ended twice. -/
theorem fenced_of_timely (hF : Function.Injective F.leaseIdentity) {id name : String}
    {now : Instant} {s : SchedulerState} (hcreated : createState F id name now = .ok s)
    {sts : List Step} (h : (fencing F).Guarded Timely (World.init s) sts) :
    (fencing F).Guarded (Fenced F) (World.init s) sts ∧ (endings F (World.init s) sts).Nodup := by
  refine ⟨?_, (endings_nodup (World.init s) sts).1⟩
  refine @Machine.Guarded.of_invariant World Step Unit (fencing F) Timely (Fenced F) (Recorded F) ?_
    (World.init s) sts h (recorded_init hcreated)
  exact fun w st hrecorded htimely => ⟨fenced_step hF hrecorded htimely, recorded_step hrecorded st⟩

/-- A digest that tells the identities of any two leases apart. -/
def sampleDigest : SchedulerDigest where
  entry _ := ""
  state _ := ""
  entryIdentity missionId _ := missionId
  leaseIdentity i := String.ofList (Val.encode (.list
    [.str i.schedulerId, .str i.entryId, .str i.owner, .int (.ofNat i.acquiredAt)]))

theorem sampleDigest_injective : Function.Injective sampleDigest.leaseIdentity := by
  intro i j h
  have hvalue := (Val.encode_append_inj
    (congrArg (· ++ []) (String.ofList_inj.mp h))).1
  cases i
  cases j
  simp only [Val.list.injEq, List.cons.injEq, Val.str.injEq, Val.int.injEq,
    Int.ofNat.injEq] at hvalue
  obtain ⟨rfl, rfl, rfl, rfl, -⟩ := hvalue
  rfl

def sampleScheduler : SchedulerState :=
  match createState sampleDigest "scheduler" "default" 0 with
  | .ok s => s
  | .error _ => emptyScheduler

def enqueueMission1 : Step := .enqueue "/missions/one.json" (.ok ⟨.str "1", .str "created"⟩) 0 0

def finishFirst (now : Instant) : Step :=
  .finish 0 (.ok [("mission_status", .str "completed")]) (.ok none) (.ok none) now

/-- Leased for a second, run, given back in time. -/
def timelySteps : List Step :=
  [enqueueMission1, .start "first" 1 0 (.ok none), finishFirst 900000, .recover 1000000]

/-- The driver is back only once the lease has expired and was recovered. -/
def lateSteps : List Step :=
  [enqueueMission1, .start "first" 1 0 (.ok none), .recover 1000000, finishFirst 2000000]

theorem fenced_of_timely_sample :
    (fencing sampleDigest).Guarded (Fenced sampleDigest) (World.init sampleScheduler) timelySteps ∧
      (endings sampleDigest (World.init sampleScheduler) timelySteps).Nodup :=
  fenced_of_timely sampleDigest_injective
    (show createState sampleDigest "scheduler" "default" 0 = .ok sampleScheduler from rfl)
    (by decide +kernel)

def lastReason (e : Entry) : String := (Val.getIn "reason" e.lastError.entries).text

/-- The holder that is late writes its own refusal on the entry. -/
theorem late_finish_written :
    ¬(fencing sampleDigest).Guarded (Fenced sampleDigest) (World.init sampleScheduler) lateSteps := by
  intro h
  obtain ⟨-, -, -, hlast, -⟩ := h
  have hkept := hlast.fenced 0
    ⟨entryIdOf sampleDigest "1" "", leaseIdOf sampleDigest
      ⟨"scheduler", entryIdOf sampleDigest "1" "", "first", 0⟩, "first", 0⟩
    (by decide +kernel) (by decide +kernel) (by decide +kernel)
  have hreason := congrArg (Option.map lastReason) hkept
  revert hreason
  decide +kernel

end MissionScheduler
end ZeroRuntime
