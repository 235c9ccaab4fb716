import ZeroRuntime.Lib.Spread
import ZeroRuntime.Missions.Ordered
import ZeroRuntime.Missions.Refreshed

/-!
# ZeroRuntime.Missions.Propagation

What a lost goal does to the goals that wait for it.

* `propagateLoop` is `propagate_dependency_states` as it is written: passes over the goals as long
  as one of them blocks a goal. A dependency that is no goal is a key error, and `none` stands for a
  loop that is still running.
* `blockLoop_eq`: on closed graphs the loop comes to an end, with what as many passes as there are
  goals make of them.
* `propagation_least`: a goal is blocked if and only if a chain of waiting goals leads from it to a
  goal that was lost, so the order of the goals does not matter.
-/

namespace ZeroRuntime
namespace Missions

open Lib Relation

/-! ## The loop as it is written -/

def dependencyStates (goals : Goals) : List String → Except Err (List GoalStatus)
  | [] => .ok []
  | d :: ds =>
    match statusIn goals d with
    | none => .error .keyError
    | some status => do
      let rest ← dependencyStates goals ds
      .ok (status :: rest)

/-- The `for` loop, with `changed`. -/
def blockPass : List String → Goals × Bool → Except Err (Goals × Bool)
  | [], acc => .ok acc
  | id :: ids, (goals, changed) =>
    match goals.get? id with
    | none => blockPass ids (goals, changed)
    | some g =>
      if isWaiting g.goalStatus then do
        let states ← dependencyStates goals g.dependsOn
        if states.any isLost then blockPass ids (goals.set id (blockGoal g), true)
        else blockPass ids (goals, changed)
      else blockPass ids (goals, changed)

/-- The `while` loop; `fuel` bounds its passes. -/
def blockLoop : ℕ → Goals → Option (Except Err Goals)
  | 0, _ => none
  | fuel + 1, goals =>
    match blockPass goals.keys (goals, false) with
    | .error err => some (.error err)
    | .ok (goals', changed) => if changed then blockLoop fuel goals' else some (.ok goals')

def propagateLoop (fuel : ℕ) (goals : Goals) (policy : String) : Option (Except Err Goals) :=
  if dependencyPolicies.contains policy then blockLoop fuel goals
  else some (.error (.valueError "invalid_dependency_policy"))

/-! ## Passes -/

/-- Every dependency is a goal. -/
def Closed (goals : Goals) : Prop :=
  ∀ id g, goals.get? id = some g → ∀ d ∈ g.dependsOn, d ∈ goals.keys

variable {goals : Goals}

theorem Blocks.closed {goals' : Goals} (h : Blocks goals goals') (hclosed : Closed goals) :
    Closed goals' := by
  intro id g hg d hd
  rw [h.mem_keys]
  rcases h id with h | ⟨g₀, hg₀, -, h⟩
  · exact hclosed id g (h ▸ hg) d hd
  · rw [h] at hg
    cases hg
    exact hclosed id g₀ hg₀ d hd

theorem dependencyStates_eq {ds : List String} (h : ∀ d ∈ ds, d ∈ goals.keys) :
    ∃ states, dependencyStates goals ds = .ok states ∧
      states.any isLost = ds.any fun d => ((statusIn goals d).map isLost).getD false := by
  induction ds with
  | nil => exact ⟨[], rfl, rfl⟩
  | cons d ds ih =>
    obtain ⟨rest, hrest, hany⟩ := ih fun x hx => h x (List.mem_cons_of_mem d hx)
    obtain ⟨g, hg⟩ := Dict.mem_keys.mp (h d List.mem_cons_self)
    have hstatus : statusIn goals d = some g.goalStatus := by
      unfold statusIn
      rw [hg]
      rfl
    refine ⟨g.goalStatus :: rest, ?_, ?_⟩
    · rw [dependencyStates, hstatus]
      dsimp only
      rw [hrest]
      rfl
    · rw [List.any_cons, List.any_cons, hany, hstatus]
      rfl

/-- The number of goals that can still be blocked. -/
def waitingCount (goals : Goals) : ℕ := goals.count fun g => isWaiting g.goalStatus

variable {id : String} {g : Goal}

theorem waitingCount_set (hg : goals.get? id = some g) (hwaiting : isWaiting g.goalStatus = true) :
    waitingCount (goals.set id (blockGoal g)) + 1 = waitingCount goals := by
  have hcount := goals.count_set id (blockGoal g) fun g => isWaiting g.goalStatus
  rw [hg, Option.any_some, hwaiting] at hcount
  exact hcount

theorem waitingCount_le (goals : Goals) : waitingCount goals ≤ goals.entries.length :=
  List.countP_le_length

/-- What a pass has done: it blocked a goal, or nothing was to be blocked. -/
structure Passed (ids : List String) (goals goals' : Goals) (changed : Bool) : Prop where
  fewer : changed = true → waitingCount goals' < waitingCount goals
  same : changed = false → goals' = goals ∧
    ∀ id ∈ ids, ∀ g, goals.get? id = some g → mustBlock goals g = false

/-- On closed graphs a pass raises nothing, and is the one of the model. -/
theorem blockPass_eq (hclosed : Closed goals) (ids : List String) (changed : Bool) :
    ∃ changed', blockPass ids (goals, changed) =
        .ok (propagatePass ids goals, changed || changed') ∧
      Passed ids goals (propagatePass ids goals) changed' := by
  induction ids generalizing goals changed with
  | nil =>
    refine ⟨false, ?_, ⟨(by intro h; cases h), fun _ => ⟨rfl, fun id hid => ?_⟩⟩⟩
    · rw [Bool.or_false]
      rfl
    · cases hid
  | cons id ids ih =>
    -- nothing is blocked at this goal
    have hskip (hcalm : ∀ g, goals.get? id = some g → mustBlock goals g = false)
        (hpass : blockPass (id :: ids) (goals, changed) = blockPass ids (goals, changed))
        (hmodel : propagatePass (id :: ids) goals = propagatePass ids goals) :
        ∃ changed', blockPass (id :: ids) (goals, changed) =
            .ok (propagatePass (id :: ids) goals, changed || changed') ∧
          Passed (id :: ids) goals (propagatePass (id :: ids) goals) changed' := by
      obtain ⟨changed', hrest, hpassed⟩ := ih hclosed changed
      rw [hpass, hmodel]
      refine ⟨changed', hrest, ⟨hpassed.fewer, fun h => ⟨(hpassed.same h).1, fun i hi g hg => ?_⟩⟩⟩
      rcases List.mem_cons.mp hi with rfl | hi
      · exact hcalm g hg
      · exact (hpassed.same h).2 i hi g hg
    cases hg : goals.get? id with
    | none =>
      refine hskip (fun g h => ?_) ?_ ?_
      · rw [hg] at h
        cases h
      · rw [blockPass, hg]
      · rw [propagatePass, hg]
    | some g =>
      obtain ⟨states, hstates, hany⟩ := dependencyStates_eq (hclosed id g hg)
      have hmust : mustBlock goals g = (isWaiting g.goalStatus && states.any isLost) := by
        rw [hany]
        rfl
      by_cases hwaiting : isWaiting g.goalStatus = true
      · by_cases hlost : states.any isLost = true
        · have hblocks : mustBlock goals g = true := by rw [hmust, hwaiting, hlost]; rfl
          have hstep : Blocks goals (goals.set id (blockGoal g)) := by
            intro i
            rw [Dict.get?_set]
            by_cases hi : i = id
            · exact .inr ⟨g, hi ▸ hg, hwaiting, if_pos hi⟩
            · exact .inl (if_neg hi)
          obtain ⟨changed', hrest, hpassed⟩ := ih (hstep.closed hclosed) true
          have hmodel : propagatePass (id :: ids) goals =
              propagatePass ids (goals.set id (blockGoal g)) := by
            rw [propagatePass, hg]
            dsimp only
            rw [if_pos hblocks]
          refine ⟨true, ?_, ⟨fun _ => ?_, (by intro h; cases h)⟩⟩
          · rw [blockPass, hg]
            dsimp only
            rw [if_pos hwaiting, hstates]
            change (if states.any isLost then _ else _) = _
            rw [if_pos hlost, hrest, hmodel, Bool.true_or, Bool.or_true]
          · have hcount := waitingCount_set hg hwaiting
            rw [hmodel]
            cases changed' with
            | true =>
              have hless := hpassed.fewer rfl
              omega
            | false =>
              rw [(hpassed.same rfl).1]
              omega
        · have hcalm : mustBlock goals g = false := by
            rw [hmust, Bool.eq_false_iff.mpr hlost, Bool.and_false]
          refine hskip (fun g' h => ?_) ?_ ?_
          · rw [hg, Option.some.injEq] at h
            exact h ▸ hcalm
          · rw [blockPass, hg]
            dsimp only
            rw [if_pos hwaiting, hstates]
            change (if states.any isLost then _ else _) = _
            rw [if_neg hlost]
          · rw [propagatePass, hg]
            dsimp only
            rw [if_neg (by rw [hcalm]; exact Bool.false_ne_true)]
      · have hcalm : mustBlock goals g = false := by
          rw [hmust, Bool.eq_false_iff.mpr hwaiting, Bool.false_and]
        refine hskip (fun g' h => ?_) ?_ ?_
        · rw [hg, Option.some.injEq] at h
          exact h ▸ hcalm
        · rw [blockPass, hg]
          dsimp only
          rw [if_neg hwaiting]
        · rw [propagatePass, hg]
          dsimp only
          rw [if_neg (by rw [hcalm]; exact Bool.false_ne_true)]

/-- No goal is left to be blocked. -/
def Calm (goals : Goals) : Prop :=
  ∀ id g, goals.get? id = some g → mustBlock goals g = false

theorem blockPass_cases (hclosed : Closed goals) :
    (∃ goals', blockPass goals.keys (goals, false) = .ok (goals', true) ∧
      goals' = propagatePass goals.keys goals ∧ waitingCount goals' < waitingCount goals) ∨
    (blockPass goals.keys (goals, false) = .ok (goals, false) ∧
      propagatePass goals.keys goals = goals ∧ Calm goals) := by
  obtain ⟨changed, hpass, hpassed⟩ := blockPass_eq hclosed goals.keys false
  rw [Bool.false_or] at hpass
  cases changed with
  | true => exact .inl ⟨_, hpass, rfl, hpassed.fewer rfl⟩
  | false =>
    obtain ⟨hsame, hcalm⟩ := hpassed.same rfl
    rw [hsame] at hpass
    exact .inr ⟨hpass, hsame, fun id g hg => hcalm id (Dict.mem_keys.mpr ⟨g, hg⟩) g hg⟩

theorem propagatePasses_fixed (h : propagatePass goals.keys goals = goals) (n : ℕ) :
    propagatePasses n goals = goals := by
  induction n with
  | zero => rfl
  | succ n ih => rw [propagatePasses, h, ih]

theorem propagatePass_of_calm (h : Calm goals) (ids : List String) :
    propagatePass ids goals = goals := by
  induction ids with
  | nil => rfl
  | cons id ids ih =>
    rw [propagatePass]
    split
    · rename_i g hg
      rw [h id g hg]
      exact ih
    · exact ih

/-- Where no goal is to be blocked, the first pass is the last one. -/
theorem blockLoop_calm {fuel : ℕ} (hclosed : Closed goals) (h : Calm goals) (hfuel : 0 < fuel) :
    blockLoop fuel goals = some (.ok goals) := by
  obtain ⟨fuel, rfl⟩ : ∃ k, fuel = k + 1 := ⟨fuel - 1, by omega⟩
  rcases blockPass_cases hclosed with ⟨goals', -, hpass, hless⟩ | ⟨hpass, -, -⟩
  · rw [hpass, propagatePass_of_calm h] at hless
    exact absurd hless (lt_irrefl _)
  · rw [blockLoop, hpass]
    rfl

/-- The loop is done after at most one pass more than there are waiting goals. -/
theorem blockLoop_eq {n fuel : ℕ} {goals : Goals} (hclosed : Closed goals)
    (hn : waitingCount goals ≤ n) (hfuel : n < fuel) :
    blockLoop fuel goals = some (.ok (propagatePasses n goals)) ∧
      Calm (propagatePasses n goals) := by
  induction n generalizing fuel goals with
  | zero =>
    obtain ⟨fuel, rfl⟩ : ∃ k, fuel = k + 1 := ⟨fuel - 1, by omega⟩
    rcases blockPass_cases hclosed with ⟨goals', -, -, hless⟩ | ⟨hpass, -, hcalm⟩
    · omega
    · refine ⟨?_, hcalm⟩
      rw [blockLoop, hpass]
      rfl
  | succ n ih =>
    obtain ⟨fuel, rfl⟩ : ∃ k, fuel = k + 1 := ⟨fuel - 1, by omega⟩
    rcases blockPass_cases hclosed with ⟨goals', hpass, hgoals', hless⟩ | ⟨hpass, hsame, hcalm⟩
    · have hclosed' : Closed goals' := by
        rw [hgoals']
        exact (blocks_propagatePass _ goals).closed hclosed
      obtain ⟨hloop, hcalm⟩ := @ih fuel goals' hclosed' (by omega) (by omega)
      rw [propagatePasses, ← hgoals']
      refine ⟨?_, hcalm⟩
      rw [blockLoop, hpass]
      exact hloop
    · rw [propagatePasses_fixed hsame]
      refine ⟨?_, hcalm⟩
      rw [blockLoop, hpass]
      rfl

/-! ## Chains -/

def IsWaiting (goals : Goals) (id : String) : Prop :=
  ∃ g, goals.get? id = some g ∧ isWaiting g.goalStatus = true

def IsLost (goals : Goals) (id : String) : Prop :=
  ∃ g, goals.get? id = some g ∧ isLost g.goalStatus = true

/-- A chain of goals that wait, each for the next one, leads to a goal that was lost. -/
def Doomed (goals : Goals) : String → Prop :=
  Spread.Reaches (IsWaiting goals) (DependsOn goals) (IsLost goals)

theorem not_lost_of_waiting (h : IsWaiting goals id) : ¬IsLost goals id := by
  obtain ⟨g, hg, hwaiting⟩ := h
  rintro ⟨g', hg', hlost⟩
  rw [hg, Option.some.injEq] at hg'
  subst hg'
  revert hwaiting hlost
  cases g.goalStatus <;> decide

theorem isLost_set (x : String) :
    IsLost (goals.set id (blockGoal g)) x ↔ x = id ∨ IsLost goals x := by
  unfold IsLost
  rw [Dict.get?_set]
  by_cases hx : x = id
  · rw [if_pos hx]
    exact iff_of_true ⟨_, rfl, rfl⟩ (.inl hx)
  · rw [if_neg hx, or_iff_right hx]

theorem exists_lost_of_mustBlock (h : mustBlock goals g = true) :
    isWaiting g.goalStatus = true ∧ ∃ d ∈ g.dependsOn, IsLost goals d := by
  unfold mustBlock at h
  obtain ⟨hwaiting, hany⟩ := Bool.and_eq_true_iff.mp h
  obtain ⟨d, hd, hlost⟩ := List.any_eq_true.mp hany
  refine ⟨hwaiting, d, hd, ?_⟩
  unfold statusIn at hlost
  unfold IsLost
  cases hx : goals.get? d with
  | none =>
    rw [hx] at hlost
    cases hlost
  | some x =>
    rw [hx] at hlost
    exact ⟨x, rfl, hlost⟩

theorem mustBlock_of_lost {d : String} (hwaiting : isWaiting g.goalStatus = true)
    (hd : d ∈ g.dependsOn) (h : IsLost goals d) : mustBlock goals g = true := by
  obtain ⟨x, hx, hlost⟩ := h
  unfold mustBlock
  rw [hwaiting, Bool.true_and]
  refine List.any_eq_true.mpr ⟨d, hd, ?_⟩
  unfold statusIn
  rw [hx]
  exact hlost

/-- What is known while the passes go on: blocked goals were blocked for a reason. -/
structure Spreads (goals now : Goals) : Prop where
  blocks : Blocks goals now
  within : Spread.Within (IsWaiting goals) (DependsOn goals) (IsLost goals) (IsLost now)

theorem Spreads.refl (goals : Goals) : Spreads goals goals := ⟨Blocks.refl goals, Spread.within_seed⟩

variable {now : Goals}

theorem Blocks.get?_of_waiting (h : Blocks goals now) (hg : now.get? id = some g)
    (hwaiting : isWaiting g.goalStatus = true) : goals.get? id = some g := by
  rcases h id with h | ⟨g₀, -, -, h⟩
  · rw [← h]
    exact hg
  · rw [h] at hg
    cases hg
    cases hwaiting

theorem Spreads.set (h : Spreads goals now) (hg : now.get? id = some g)
    (hmust : mustBlock now g = true) : Spreads goals (now.set id (blockGoal g)) := by
  obtain ⟨hwaiting, d, hd, hlost⟩ := exists_lost_of_mustBlock hmust
  have hold := h.blocks.get?_of_waiting hg hwaiting
  refine ⟨h.blocks.trans fun i => ?_,
    h.within.mark ⟨g, hold, hwaiting⟩ ⟨g, hold, hd⟩ hlost fun x => isLost_set x⟩
  rw [Dict.get?_set]
  by_cases hi : i = id
  · exact .inr ⟨g, hi ▸ hg, hwaiting, if_pos hi⟩
  · exact .inl (if_neg hi)

theorem Spreads.pass (h : Spreads goals now) (ids : List String) :
    Spreads goals (propagatePass ids now) := by
  induction ids generalizing now with
  | nil => exact h
  | cons id ids ih =>
    rw [propagatePass]
    refine ih ?_
    split
    · rename_i g hg
      split
      · rename_i hmust
        exact h.set hg hmust
      · exact h
    · exact h

theorem Spreads.passes (h : Spreads goals now) (n : ℕ) : Spreads goals (propagatePasses n now) := by
  induction n generalizing now with
  | zero => exact h
  | succ n ih => exact ih (h.pass _)

/-! ## The least fixpoint -/

/-- The doomed goals are blocked, and nothing else is touched. -/
structure Settled (goals result : Goals) : Prop where
  doomed : ∀ id g, goals.get? id = some g → Doomed goals id → result.get? id = some (blockGoal g)
  spared : ∀ id, ¬Doomed goals id → result.get? id = goals.get? id

variable {result : Goals}

theorem Spreads.settled (h : Spreads goals result) (hcalm : Calm result) :
    Settled goals result := by
  have hclosed : Spread.Closed (IsWaiting goals) (DependsOn goals) (IsLost result) := by
    rintro x y ⟨g, hg, hwaiting⟩ ⟨g', hg', hy⟩ hlost
    rw [hg, Option.some.injEq] at hg'
    subst hg'
    rcases h.blocks x with hx | ⟨g', -, -, hx⟩
    · rw [hg] at hx
      have hstuck := hcalm x g hx
      rw [mustBlock_of_lost hwaiting hy hlost] at hstuck
      cases hstuck
    · exact ⟨_, hx, rfl⟩
  have hlost := h.within.least hclosed
  refine ⟨fun id g hg hdoomed => ?_, fun id hspared => ?_⟩
  · have hwaiting := hdoomed.isActive
    rcases h.blocks id with hid | ⟨g', hg', -, hid⟩
    · obtain ⟨g', hg', hlost'⟩ := (hlost id).mpr (.inr hdoomed)
      exact absurd ⟨g', hid ▸ hg', hlost'⟩ (not_lost_of_waiting hwaiting)
    · rw [hg, Option.some.injEq] at hg'
      rw [hg']
      exact hid
  · rcases h.blocks id with hid | ⟨g', hg', hwaiting, hid⟩
    · exact hid
    · rcases (hlost id).mp ⟨_, hid, rfl⟩ with hseed | hdoomed
      · exact absurd hseed (not_lost_of_waiting ⟨g', hg', hwaiting⟩)
      · exact absurd hdoomed hspared

theorem Settled.statusIn_blocked (h : Settled goals result) (id : String) :
    statusIn result id = some .blocked ↔ statusIn goals id = some .blocked ∨ Doomed goals id := by
  by_cases hdoomed : Doomed goals id
  · obtain ⟨g, hg, -⟩ := hdoomed.isActive
    refine iff_of_true ?_ (.inr hdoomed)
    unfold statusIn
    rw [h.doomed id g hg hdoomed]
    rfl
  · unfold statusIn
    rw [h.spared id hdoomed, or_iff_left hdoomed]

theorem Settled.get?_eq {a b : Goals} (ha : Settled goals a) (hb : Settled goals b) (id : String) :
    a.get? id = b.get? id := by
  by_cases hdoomed : Doomed goals id
  · obtain ⟨g, hg, -⟩ := hdoomed.isActive
    rw [ha.doomed id g hg hdoomed, hb.doomed id g hg hdoomed]
  · rw [ha.spared id hdoomed, hb.spared id hdoomed]

/-- What a result settles depends only on what the goals are, not on their order. -/
theorem Settled.congr {goals' : Goals} (h : Settled goals result)
    (hsame : ∀ id, goals'.get? id = goals.get? id) : Settled goals' result := by
  have hdoomed : Doomed goals' = Doomed goals := by
    unfold Doomed IsWaiting DependsOn IsLost
    simp only [hsame]
  refine ⟨fun id g hg hid => ?_, fun id hid => ?_⟩
  · rw [hsame] at hg
    rw [hdoomed] at hid
    exact h.doomed id g hg hid
  · rw [hdoomed] at hid
    rw [hsame]
    exact h.spared id hid

theorem closed_of_valid {F : GoalDigest} {graph : GoalGraph} {missionId : String}
    (h : validateGoalGraph F graph goals missionId = []) : Closed goals := by
  unfold validateGoalGraph at h
  simp only [List.append_eq_nil_iff] at h
  have horder := h.1.2
  split at horder
  · rename_i order hsorted
    obtain ⟨rank, hrank⟩ := stableTopologicalOrder_isOk.mp ⟨order, hsorted⟩
    exact fun id g hg d hd => (hrank id g hg d hd).1
  · cases horder

/-- The law of the propagation: it comes to an end, with the doomed goals blocked and the others as
they were, whatever the order of the goals, and a second application changes nothing. -/
structure LeastFixpoint (goals : Goals) (policy : String) (result : Goals) : Prop where
  ends : ∀ fuel, goals.entries.length < fuel →
    propagateLoop fuel goals policy = some (.ok result)
  settled : Settled goals result
  blocked : ∀ id, statusIn result id = some .blocked ↔
    statusIn goals id = some .blocked ∨ Doomed goals id
  order : ∀ goals' : Goals, goals'.entries.Perm goals.entries →
    ∃ result', (∀ fuel, goals.entries.length < fuel →
        propagateLoop fuel goals' policy = some (.ok result')) ∧
      ∀ id, result'.get? id = result.get? id
  again : ∀ fuel, result.entries.length < fuel →
    propagateLoop fuel result policy = some (.ok result)

theorem propagation_least {F : GoalDigest} {graph : GoalGraph} {goals : Goals}
    {missionId policy : String} (hvalid : validateGoalGraph F graph goals missionId = [])
    (hpolicy : policy ∈ dependencyPolicies) : ∃ result, LeastFixpoint goals policy result := by
  have hloop : ∀ fuel goals, propagateLoop fuel goals policy = blockLoop fuel goals := by
    intro fuel goals
    unfold propagateLoop
    rw [if_pos (List.contains_iff_mem.mpr hpolicy)]
  have hclosed := closed_of_valid hvalid
  obtain ⟨-, hcalm⟩ := blockLoop_eq hclosed (waitingCount_le goals) (Nat.lt_succ_self _)
  have hspreads := (Spreads.refl goals).passes goals.entries.length
  have hsettled := hspreads.settled hcalm
  refine ⟨_, fun fuel hfuel => ?_, hsettled, hsettled.statusIn_blocked, fun goals' hperm => ?_,
    fun fuel hfuel => ?_⟩
  · rw [hloop]
    exact (blockLoop_eq hclosed (waitingCount_le goals) hfuel).1
  · have hsame := get?_of_perm hperm
    have hclosed' : Closed goals' := by
      intro id g hg d hd
      rw [hsame] at hg
      obtain ⟨x, hx⟩ := Dict.mem_keys.mp (hclosed id g hg d hd)
      exact Dict.mem_keys.mpr ⟨x, (hsame d).trans hx⟩
    have hcount : waitingCount goals' ≤ goals.entries.length :=
      (waitingCount_le goals').trans hperm.length_eq.le
    refine ⟨propagatePasses goals.entries.length goals', fun fuel hfuel => ?_, ?_⟩
    · rw [hloop]
      exact (blockLoop_eq hclosed' hcount hfuel).1
    · obtain ⟨-, hcalm'⟩ := blockLoop_eq hclosed' hcount (Nat.lt_succ_self _)
      have hsettled' := ((Spreads.refl goals').passes goals.entries.length).settled hcalm'
      exact (hsettled'.congr fun id => (hsame id).symm).get?_eq hsettled
  · rw [hloop]
    exact blockLoop_calm (hspreads.blocks.closed hclosed) hcalm (by omega)

/-! ## A goal whose dependency failed -/

def waitingGoal (goalStatus : GoalStatus) (dependsOn : List String) : Goal where
  missionId := "m"
  goalTitle := "t"
  goalDescription := "d"
  goalType := "inspect"
  goalStatus := goalStatus
  priority := 0
  dependsOn := dependsOn
  requiredCapabilities := []
  targetScope := []
  acceptanceCriteria := []
  validationRequirements := []
  maxAttempts := 3

/-- The last goal comes first, so one pass is not enough. -/
def chainOfThree : Goals :=
  ((Dict.empty.set "c" (waitingGoal .ready ["b"])).set "b" (waitingGoal .pending ["a"])).set "a"
    (waitingGoal .failed [])

def plainGoalDigest : GoalDigest := ⟨fun _ => "", fun _ => "", fun _ => ""⟩

def chainGraph : GoalGraph where
  contract := goalGraphContract
  missionId := "m"
  goalIds := ["a", "b", "c"]
  goalOrder := ["a", "b", "c"]
  dependencies := [("a", []), ("b", ["a"]), ("c", ["b"])]
  confirmed := true
  graphFingerprint := ""

theorem propagation_least_chain : ∃ result, LeastFixpoint chainOfThree "block_dependents" result :=
  @propagation_least plainGoalDigest chainGraph chainOfThree "m" "block_dependents"
    (by decide +kernel) (by decide)

end Missions
end ZeroRuntime
