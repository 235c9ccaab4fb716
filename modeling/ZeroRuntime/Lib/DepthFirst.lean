import Mathlib.Logic.Relation
import ZeroRuntime.Lib.Dict

/-!
# ZeroRuntime.Lib.DepthFirst

The depth-first search for a cycle in a graph that is written down as a dictionary from nodes to
the nodes they lead to. Edges to nodes that are no key are not followed.

* `visit` keeps the nodes seen so far and the path it came by; `none` says that it met that path.
* `Settled`: what was seen and is not on the path leads into no cycle.
* `detectCycle_eq_false_iff`: the search finds nothing if and only if there is no cycle.
-/

namespace ZeroRuntime
namespace Lib
namespace DepthFirst

variable {α : Type} [DecidableEq α]

abbrev Graph (α : Type) := List (α × List α)

def nodes (g : Graph α) : List α := g.map Prod.fst

/-- The nodes that `a` leads to and that are keys. -/
def next (g : Graph α) (a : α) : List α :=
  ((Dict.find a g).getD []).filter (· ∈ nodes g)

/-- Visits a node. `fuel` bounds how much deeper the search may go. -/
def visit (g : Graph α) (fuel : Nat) (stack visited : List α) (node : α) : Option (List α) :=
  if node ∈ stack then none
  else if node ∈ visited then some visited
  else
    match fuel with
    | 0 => none
    | fuel + 1 => (next g node).foldlM (visit g fuel (node :: stack)) (node :: visited)

def detectCycle (g : Graph α) : Bool :=
  ((nodes g).foldlM (visit g (nodes g).length []) []).isNone

/-- One step from `a` to `b`. -/
def Edge (g : Graph α) (a b : α) : Prop := b ∈ next g a

def Acyclic (g : Graph α) : Prop := ∀ a, ¬Relation.TransGen (Edge g) a a

/-! ## Loops that may break off -/

section Loops

variable {β σ : Type} {f : σ → β → Option σ}

/-- What each round keeps, and what each round shows of its element, for a loop that comes to its
end. -/
theorem foldlM_some {I : σ → Prop} {P : β → Prop}
    (hstep : ∀ s b s', f s b = some s' → I s → I s' ∧ P b) {bs : List β} {s s' : σ}
    (h : bs.foldlM f s = some s') (hs : I s) : I s' ∧ ∀ b ∈ bs, P b := by
  induction bs generalizing s with
  | nil =>
    cases h
    exact ⟨hs, fun _ hb => absurd hb List.not_mem_nil⟩
  | cons b bs ih =>
    rw [List.foldlM_cons] at h
    obtain ⟨t, ht, hrest⟩ := Option.bind_eq_some_iff.mp h
    obtain ⟨hinv, hb⟩ := hstep s b t ht hs
    obtain ⟨hend, hbs⟩ := ih hrest hinv
    exact ⟨hend, List.forall_mem_cons.mpr ⟨hb, hbs⟩⟩

/-- A loop that breaks off does so in one round, with what the rounds before it kept. -/
theorem foldlM_none {I : σ → Prop} {bs : List β} {s : σ}
    (hstep : ∀ s b s', f s b = some s' → I s → I s') (h : bs.foldlM f s = none)
    (hs : I s) : ∃ t, I t ∧ ∃ b ∈ bs, f t b = none := by
  induction bs generalizing s with
  | nil => cases h
  | cons b bs ih =>
    rw [List.foldlM_cons] at h
    cases ht : f s b with
    | none => exact ⟨s, hs, b, List.mem_cons_self, ht⟩
    | some t =>
      have hrest : bs.foldlM f t = none := by simpa only [ht, Option.bind_eq_bind,
        Option.bind_some] using h
      obtain ⟨u, hu, c, hc, hnone⟩ := ih hrest (hstep s b t ht hs)
      exact ⟨u, hu, c, List.mem_cons_of_mem _ hc, hnone⟩

end Loops

/-! ## A search that finds nothing -/

variable {g : Graph α}

/-- No endless way starts at `a`. -/
abbrev Ends (g : Graph α) (a : α) : Prop := Acc (fun b a => Edge g a b) a

/-- What was seen and is not on the path leads into no cycle. -/
def Settled (g : Graph α) (stack visited : List α) : Prop :=
  ∀ a ∈ visited, a ∉ stack → Ends g a

variable {fuel : Nat} {visited : List α} {node : α}

theorem settled_of_visit {stack visited' : List α}
    (h : visit g fuel stack visited node = some visited') (hsettled : Settled g stack visited) :
    Settled g stack visited' ∧ Ends g node := by
  induction fuel generalizing stack visited visited' node with
  | zero =>
    unfold visit at h
    split_ifs at h with hstack hvisited
    cases h
    exact ⟨hsettled, hsettled node hvisited hstack⟩
  | succ fuel ih =>
    unfold visit at h
    split_ifs at h with hstack hvisited
    · cases h
      exact ⟨hsettled, hsettled node hvisited hstack⟩
    · -- on the longer path the node itself is not asked about
      have hstart : Settled g (node :: stack) (node :: visited) := by
        intro a ha hnot
        rw [List.mem_cons, not_or] at hnot
        exact hsettled a ((List.mem_cons.mp ha).resolve_left hnot.1) hnot.2
      obtain ⟨hend, hnext⟩ :=
        foldlM_some (fun visited b visited' hb hs => ih hb hs) h hstart
      have hnode : Ends g node := Acc.intro node hnext
      refine ⟨fun a ha hnot => ?_, hnode⟩
      by_cases heq : a = node
      · rw [heq]
        exact hnode
      · exact hend a ha (List.not_mem_cons_of_ne_of_not_mem heq hnot)

/-- From a node without an endless way there is no way back. -/
theorem not_cycle_of_ends {a : α} (h : Ends g a) : ¬Relation.TransGen (Edge g) a a := by
  induction h with
  | intro a _ ih =>
    intro hcycle
    obtain ⟨b, hab, hba⟩ := Relation.TransGen.head'_iff.mp hcycle
    exact ih b hab (Relation.TransGen.tail' hba hab)

/-- A node that leads somewhere is a key. -/
theorem mem_nodes_of_edge {a b : α} (h : Edge g a b) : a ∈ nodes g := by
  unfold Edge next at h
  cases hfind : Dict.find a g with
  | none =>
    rw [hfind] at h
    cases h
  | some deps =>
    clear h
    induction g with
    | nil => cases hfind
    | cons e es ih =>
      by_cases hkey : a = e.1
      · exact hkey ▸ List.mem_cons_self
      · rw [Dict.find, if_neg hkey] at hfind
        exact List.mem_cons_of_mem _ (ih hfind)

/-! ## A search that breaks off -/

theorem visited_subset {stack visited' : List α}
    (h : visit g fuel stack visited node = some visited') : visited ⊆ visited' := by
  induction fuel generalizing stack visited visited' node with
  | zero =>
    unfold visit at h
    split_ifs at h
    cases h
    exact List.Subset.refl _
  | succ fuel ih =>
    unfold visit at h
    split_ifs at h
    · cases h
      exact List.Subset.refl _
    · have hkept := foldlM_some (I := fun seen => node :: visited ⊆ seen) (P := fun _ => True)
        (fun seen b seen' hb hs => ⟨List.Subset.trans hs (ih hb), trivial⟩) h (List.Subset.refl _)
      exact List.Subset.trans (List.subset_cons_self node visited) hkept.1

/-- The keys that were not seen. -/
def unseen (g : Graph α) (visited : List α) : List α := (nodes g).filter (· ∉ visited)

theorem unseen_mono {visited' : List α} (h : visited ⊆ visited') :
    (unseen g visited').length ≤ (unseen g visited).length :=
  (List.monotone_filter_right _ fun a ha => by
    simp only [decide_eq_true_eq] at ha ⊢
    exact fun hmem => ha (h hmem)).length_le

theorem unseen_cons (hnode : node ∈ nodes g) (hunseen : node ∉ visited) :
    (unseen g (node :: visited)).length < (unseen g visited).length := by
  have hfilter : unseen g (node :: visited) = (unseen g visited).filter (· ≠ node) := by
    unfold unseen
    rw [List.filter_filter]
    refine List.filter_congr fun a _ => ?_
    simp only [List.mem_cons, not_or, ne_eq, Bool.decide_and]
  rw [hfilter]
  refine List.length_filter_lt_length_iff_exists.mpr ⟨node, ?_, by simp⟩
  exact List.mem_filter.mpr ⟨hnode, decide_eq_true hunseen⟩

/-- With fuel for the nodes not seen yet, the search breaks off at a cycle only. -/
theorem cycle_of_visit {stack : List α} (h : visit g fuel stack visited node = none)
    (hnode : node ∈ nodes g) (hfuel : (unseen g visited).length ≤ fuel)
    (hpath : ∀ a ∈ stack, Relation.TransGen (Edge g) a node) :
    ∃ a, Relation.TransGen (Edge g) a a := by
  induction fuel generalizing stack visited node with
  | zero =>
    unfold visit at h
    split_ifs at h with hstack hvisited
    · exact ⟨node, hpath node hstack⟩
    · have hless := unseen_cons hnode hvisited
      omega
  | succ fuel ih =>
    unfold visit at h
    split_ifs at h with hstack hvisited
    · exact ⟨node, hpath node hstack⟩
    · obtain ⟨seen, hseen, b, hb, hnone⟩ :=
        foldlM_none (I := fun seen => node :: visited ⊆ seen)
          (fun seen b seen' hb hs => List.Subset.trans hs (visited_subset hb)) h (List.Subset.refl _)
      have hless := unseen_cons hnode hvisited
      have hmono := unseen_mono (g := g) hseen
      refine ih hnone (of_decide_eq_true (List.mem_filter.mp hb).2) (by omega) ?_
      intro a ha
      rcases List.mem_cons.mp ha with rfl | ha
      · exact .single hb
      · exact (hpath a ha).tail hb

theorem detectCycle_eq_false_iff : detectCycle g = false ↔ Acyclic g := by
  unfold detectCycle
  constructor
  · intro h a hcycle
    obtain ⟨b, hab, -⟩ := Relation.TransGen.head'_iff.mp hcycle
    rw [Option.isNone_eq_false_iff, Option.isSome_iff_exists] at h
    obtain ⟨visited, hvisit⟩ := h
    have hstart : Settled g [] [] := fun a ha => absurd ha List.not_mem_nil
    have hends := (foldlM_some (I := Settled g []) (P := Ends g)
      (fun seen b seen' hb hs => settled_of_visit hb hs) hvisit hstart).2
    exact not_cycle_of_ends (hends a (mem_nodes_of_edge hab)) hcycle
  · intro hacyclic
    cases hvisit : (nodes g).foldlM (visit g (nodes g).length []) [] with
    | some visited => rfl
    | none =>
      obtain ⟨seen, -, node, hnode, hnone⟩ :=
        foldlM_none (I := fun _ => True) (fun _ _ _ _ _ => trivial) hvisit trivial
      obtain ⟨a, ha⟩ := cycle_of_visit hnone hnode (List.length_filter_le _ _)
        (fun a ha => absurd ha List.not_mem_nil)
      exact absurd ha (hacyclic a)

end DepthFirst
end Lib
end ZeroRuntime
