import Mathlib.Logic.Relation

/-!
# ZeroRuntime.Lib.Spread

Marks that spread along a relation: a node that is active takes a mark from any node it depends on.

* `Reaches`: a chain through active nodes leads to a node that is marked at the start.
* `Within`: the marks hold those at the start, and no other than a chain gives a reason for.
* `Within.least`: marks that can spread no further are the least that hold those at the start,
  whatever the order in which they were made.
-/

namespace ZeroRuntime
namespace Lib
namespace Spread

open Relation

variable {α : Type} (active : α → Prop) (dep : α → α → Prop) (seed : α → Prop)

/-- All nodes of the chain but the last one are active. -/
def Reaches (x : α) : Prop := ∃ y, TransGen (fun a b => active a ∧ dep a b) x y ∧ seed y

structure Within (marks : α → Prop) : Prop where
  seeds : ∀ x, seed x → marks x
  reasons : ∀ x, marks x → seed x ∨ Reaches active dep seed x

/-- No active node depends on a marked one without being marked. -/
def Closed (marks : α → Prop) : Prop := ∀ x y, active x → dep x y → marks y → marks x

variable {active dep seed} {marks marks' : α → Prop}

theorem Reaches.step {x y : α} (hx : active x) (hxy : dep x y)
    (hy : seed y ∨ Reaches active dep seed y) : Reaches active dep seed x := by
  rcases hy with hy | ⟨z, hyz, hz⟩
  · exact ⟨y, .single ⟨hx, hxy⟩, hy⟩
  · exact ⟨z, .head ⟨hx, hxy⟩ hyz, hz⟩

theorem Reaches.isActive {x : α} (h : Reaches active dep seed x) : active x := by
  obtain ⟨y, hxy, -⟩ := h
  obtain ⟨z, hxz, -⟩ := (TransGen.head'_iff.mp hxy)
  exact hxz.1

theorem within_seed : Within active dep seed seed := ⟨fun _ h => h, fun _ h => .inl h⟩

/-- One more mark, on an active node that depends on a marked one. -/
theorem Within.mark (h : Within active dep seed marks) {x y : α} (hx : active x) (hxy : dep x y)
    (hy : marks y) (hmarks : ∀ z, marks' z ↔ z = x ∨ marks z) : Within active dep seed marks' where
  seeds z hz := (hmarks z).mpr (.inr (h.seeds z hz))
  reasons z hz := by
    rcases (hmarks z).mp hz with rfl | hz
    · exact .inr (.step hx hxy (h.reasons y hy))
    · exact h.reasons z hz

theorem Closed.of_reaches (hclosed : Closed active dep marks) (hseed : ∀ x, seed x → marks x)
    {x : α} (h : Reaches active dep seed x) : marks x := by
  obtain ⟨y, hxy, hy⟩ := h
  induction hxy using TransGen.head_induction_on with
  | single hxy => exact hclosed _ _ hxy.1 hxy.2 (hseed _ hy)
  | head hxz _ ih => exact hclosed _ _ hxz.1 hxz.2 ih

/-- Where nothing is left to spread, the marks are those of the start and of the chains to them. -/
theorem Within.least (h : Within active dep seed marks) (hclosed : Closed active dep marks) (x : α) :
    marks x ↔ seed x ∨ Reaches active dep seed x := by
  constructor
  · exact h.reasons x
  · rintro (hx | hx)
    · exact h.seeds x hx
    · exact hclosed.of_reaches h.seeds hx

end Spread
end Lib
end ZeroRuntime
