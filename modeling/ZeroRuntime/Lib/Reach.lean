import Mathlib.Data.List.Basic
import Mathlib.Logic.Relation

/-!
# ZeroRuntime.Lib.Reach

The search for a way along a list of edges, with a stack of nodes still to look at.

* `scan`: the loop over the edges that leave one node; `none` says that one of them is into the
  target.
* `Open`: every node seen is on the stack, or all its edges were looked at.
* `hasPath_iff`: the search finds a way exactly where there is one of at least one edge.
-/

namespace ZeroRuntime
namespace Lib
namespace Reach

open Relation

variable {α : Type}

abbrev Edges (α : Type) := List (α × α)

def Edge (edges : Edges α) (a b : α) : Prop := (a, b) ∈ edges

variable [DecidableEq α]

def scan (target current : α) : Edges α → List α × List α → Option (List α × List α)
  | [], acc => some acc
  | (a, b) :: rest, (visited, stack) =>
    if a ≠ current then scan target current rest (visited, stack)
    else if b = target then none
    else if b ∈ visited then scan target current rest (visited, stack)
    else scan target current rest (b :: visited, b :: stack)

/-- `fuel` bounds the number of nodes that are taken off the stack. -/
def search (edges : Edges α) (target : α) : ℕ → List α × List α → Bool
  | _, (_, []) => false
  | 0, (_, _ :: _) => false
  | fuel + 1, (visited, current :: stack) =>
    match scan target current edges (visited, stack) with
    | none => true
    | some acc => search edges target fuel acc

/-- Is there a way of at least one edge? -/
def hasPath (edges : Edges α) (start target : α) : Bool :=
  search edges target (edges.length + 1) ([], [start])

/-! ## One node -/

variable {target : α} {acc : List α × List α}

variable {current : α}

theorem edge_of_scan {rest : Edges α} (h : scan target current rest acc = none) :
    (current, target) ∈ rest := by
  induction rest generalizing acc with
  | nil => cases h
  | cons e rest ih =>
    obtain ⟨a, b⟩ := e
    obtain ⟨visited, stack⟩ := acc
    unfold scan at h
    split_ifs at h with hother htarget hseen
    · exact List.mem_cons_of_mem _ (ih h)
    · rw [not_not.mp hother, htarget]
      exact List.mem_cons_self
    · exact List.mem_cons_of_mem _ (ih h)
    · exact List.mem_cons_of_mem _ (ih h)

/-- The edges into nodes that were not seen. -/
def unseen (edges : Edges α) (visited : List α) : Edges α :=
  edges.filter fun e => e.2 ∉ visited

variable {edges : Edges α}

variable {visited : List α}

theorem unseen_cons {a b : α} (he : (a, b) ∈ edges) (hb : b ∉ visited) :
    (unseen edges (b :: visited)).length < (unseen edges visited).length := by
  have hfilter : unseen edges (b :: visited) = (unseen edges visited).filter fun e => e.2 ≠ b := by
    unfold unseen
    rw [List.filter_filter]
    refine List.filter_congr fun e _ => ?_
    simp only [List.mem_cons, not_or, Bool.decide_and]
  rw [hfilter]
  refine List.length_filter_lt_length_iff_exists.mpr ⟨(a, b), ?_, by simp⟩
  exact List.mem_filter.mpr ⟨he, decide_eq_true hb⟩

/-- What a scan of `rest` without the target does to the nodes seen and the stack. -/
structure Scanned (edges : Edges α) (target current : α) (rest : Edges α)
    (acc acc' : List α × List α) : Prop where
  visited : acc.1 ⊆ acc'.1
  stack : acc.2 ⊆ acc'.2
  fresh : ∀ b ∈ acc'.1, b ∈ acc.1 ∨ b ∈ acc'.2
  source : ∀ b ∈ acc'.2, b ∈ acc.2 ∨ (current, b) ∈ rest
  done : ∀ b, (current, b) ∈ rest → b ≠ target ∧ b ∈ acc'.1
  length_le : (unseen edges acc'.1).length + acc'.2.length ≤
    (unseen edges acc.1).length + acc.2.length

variable {acc' : List α × List α}

theorem scanned {rest : Edges α} (hrest : rest ⊆ edges)
    (h : scan target current rest acc = some acc') :
    Scanned edges target current rest acc acc' := by
  induction rest generalizing acc with
  | nil =>
    cases h
    exact ⟨fun _ h => h, fun _ h => h, fun _ h => .inl h, fun _ h => .inl h,
      fun _ h => absurd h List.not_mem_nil, Nat.le_refl _⟩
  | cons e rest ih =>
    obtain ⟨a, b⟩ := e
    obtain ⟨visited, stack⟩ := acc
    obtain ⟨he, hrest⟩ := List.cons_subset.mp hrest
    unfold scan at h
    split_ifs at h with hother htarget hseen
    · -- an edge that leaves another node
      have hs := ih hrest h
      refine ⟨hs.visited, hs.stack, hs.fresh, ?_, ?_, hs.length_le⟩
      · exact fun c hc => (hs.source c hc).imp_right (List.mem_cons_of_mem _)
      · intro c hc
        rcases List.mem_cons.mp hc with heq | hc
        · cases heq
          exact absurd rfl hother
        · exact hs.done c hc
    · -- an edge into a node seen before
      have hs := ih hrest h
      refine ⟨hs.visited, hs.stack, hs.fresh, ?_, ?_, hs.length_le⟩
      · exact fun c hc => (hs.source c hc).imp_right (List.mem_cons_of_mem _)
      · intro c hc
        rcases List.mem_cons.mp hc with heq | hc
        · cases heq
          exact ⟨htarget, hs.visited hseen⟩
        · exact hs.done c hc
    · have hs := ih hrest h
      have hless := unseen_cons he hseen
      have hle := hs.length_le
      obtain rfl : a = current := not_not.mp hother
      refine ⟨?_, ?_, ?_, ?_, ?_, ?_⟩
      · exact fun c hc => hs.visited (List.mem_cons_of_mem b hc)
      · exact fun c hc => hs.stack (List.mem_cons_of_mem b hc)
      · intro c hc
        rcases hs.fresh c hc with hmem | hmem
        · rcases List.mem_cons.mp hmem with rfl | hmem
          · exact .inr (hs.stack List.mem_cons_self)
          · exact .inl hmem
        · exact .inr hmem
      · intro c hc
        rcases hs.source c hc with hmem | hmem
        · rcases List.mem_cons.mp hmem with rfl | hmem
          · exact .inr List.mem_cons_self
          · exact .inl hmem
        · exact .inr (List.mem_cons_of_mem _ hmem)
      · intro c hc
        rcases List.mem_cons.mp hc with heq | hc
        · cases heq
          exact ⟨htarget, hs.visited List.mem_cons_self⟩
        · exact hs.done c hc
      · simp only [List.length_cons] at hle ⊢
        omega

/-! ## The search -/

variable {start : α}

theorem path_of_search {fuel : ℕ} (hstack : ∀ a ∈ acc.2, ReflTransGen (Edge edges) start a)
    (h : search edges target fuel acc = true) : TransGen (Edge edges) start target := by
  induction fuel generalizing acc with
  | zero =>
    obtain ⟨visited, _ | ⟨current, stack⟩⟩ := acc
    · cases h
    · cases h
  | succ fuel ih =>
    obtain ⟨visited, _ | ⟨current, stack⟩⟩ := acc
    · cases h
    · have hcurrent := hstack current List.mem_cons_self
      unfold search at h
      cases hscan : scan target current edges (visited, stack) with
      | none => exact .tail' hcurrent (edge_of_scan hscan)
      | some acc' =>
        rw [hscan] at h
        have hs := scanned (List.Subset.refl _) hscan
        refine ih (fun b hb => ?_) h
        rcases hs.source b hb with hmem | hedge
        · exact hstack b (List.mem_cons_of_mem _ hmem)
        · exact hcurrent.tail hedge

/-- Every node seen, and the one the search starts from, is on the stack or has no edge that was
not looked at. -/
structure Open (edges : Edges α) (start target : α) (acc : List α × List α) : Prop where
  start : start ∈ acc.2 ∨ ∀ b, (start, b) ∈ edges → b ≠ target ∧ b ∈ acc.1
  seen : ∀ a ∈ acc.1, a ∈ acc.2 ∨ ∀ b, (a, b) ∈ edges → b ≠ target ∧ b ∈ acc.1

theorem open_of_scan {stack : List α} (h : Open edges start target (visited, current :: stack))
    (hs : Scanned edges target current edges (visited, stack) acc') :
    Open edges start target acc' := by
  -- a node that was covered before is covered still
  have hkept : ∀ a, (a ∈ current :: stack ∨ ∀ b, (a, b) ∈ edges → b ≠ target ∧ b ∈ visited) →
      a ∈ acc'.2 ∨ ∀ b, (a, b) ∈ edges → b ≠ target ∧ b ∈ acc'.1 := by
    rintro a (hmem | hdone)
    · rcases List.mem_cons.mp hmem with rfl | hmem
      · exact .inr hs.done
      · exact .inl (hs.stack hmem)
    · exact .inr fun b hb => ⟨(hdone b hb).1, hs.visited (hdone b hb).2⟩
  refine ⟨hkept start h.start, fun a ha => ?_⟩
  rcases hs.fresh a ha with hmem | hmem
  · exact hkept a (h.seen a hmem)
  · exact .inl hmem

omit [DecidableEq α] in
/-- With an empty stack all that can be reached was seen, and the target was not met. -/
theorem not_path_of_open (h : Open edges start target (visited, [])) :
    ¬TransGen (Edge edges) start target := by
  have hstart := h.start.resolve_left List.not_mem_nil
  have hall : ∀ b, TransGen (Edge edges) start b → b ≠ target ∧ b ∈ visited := by
    intro b hway
    induction hway with
    | single hb => exact hstart _ hb
    | tail _ hbc ih => exact (h.seen _ ih.2).resolve_left List.not_mem_nil _ hbc
  exact fun hway => (hall target hway).1 rfl

theorem search_of_path {fuel : ℕ} (hopen : Open edges start target acc)
    (hfuel : (unseen edges acc.1).length + acc.2.length ≤ fuel)
    (hway : TransGen (Edge edges) start target) : search edges target fuel acc = true := by
  induction fuel generalizing acc with
  | zero =>
    obtain ⟨visited, _ | ⟨current, stack⟩⟩ := acc
    · exact absurd hway (not_path_of_open hopen)
    · simp only [List.length_cons] at hfuel
      omega
  | succ fuel ih =>
    obtain ⟨visited, _ | ⟨current, stack⟩⟩ := acc
    · exact absurd hway (not_path_of_open hopen)
    · unfold search
      cases hscan : scan target current edges (visited, stack) with
      | none => rfl
      | some acc' =>
        have hs := scanned (List.Subset.refl _) hscan
        have hle := hs.length_le
        simp only [List.length_cons] at hfuel hle
        exact ih (open_of_scan hopen hs) (by omega)

theorem hasPath_iff : hasPath edges start target = true ↔ TransGen (Edge edges) start target := by
  unfold hasPath
  refine ⟨path_of_search ?_, search_of_path ?_ ?_⟩
  · intro a ha
    rw [List.mem_singleton.mp ha]
  · exact ⟨.inl List.mem_cons_self, fun a ha => absurd ha List.not_mem_nil⟩
  · have hle : (unseen edges []).length ≤ edges.length := List.length_filter_le _ _
    simp only [List.length_singleton]
    omega

end Reach
end Lib
end ZeroRuntime
