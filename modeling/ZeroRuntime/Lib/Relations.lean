import Mathlib.Data.List.Basic
import Mathlib.Data.Nat.Notation
import Mathlib.Logic.Relation

/-!
# ZeroRuntime.Lib.Relations

Relations without a cycle.

* `exists_rank`: such a relation on finitely many elements goes down the ranks of some numbering.
* `transGen_or`: a way in the union of two relations is a way in the first one, or it takes a step
  of the second.
* `acyclic_insert`: one more edge keeps a relation acyclic if it does not close a way back.
-/

namespace ZeroRuntime
namespace Lib
namespace Relations

open Relation

variable {α : Type}

def Acyclic (r : α → α → Prop) : Prop := ∀ a, ¬TransGen r a a

/-! ## Ranks -/

open Classical in
/-- The elements of `ks` that `a` leads to. -/
noncomputable def below (r : α → α → Prop) (ks : List α) (a : α) : List α :=
  ks.filter fun b => TransGen r a b

variable {r : α → α → Prop}

variable {ks : List α}

theorem mem_below {a b : α} : b ∈ below r ks a ↔ b ∈ ks ∧ TransGen r a b := by
  classical
  unfold below
  rw [List.mem_filter, decide_eq_true_iff]

/-- What `b` leads to, `a` leads to by `b`, and to `b` as well. -/
theorem length_below_lt {a b : α} (hb : b ∈ ks) (hab : r a b) (hacyclic : ¬TransGen r b b) :
    (below r ks b).length < (below r ks a).length := by
  classical
  have hfilter : below r ks b = (below r ks a).filter fun x => TransGen r b x := by
    unfold below
    rw [List.filter_filter]
    refine List.filter_congr fun x _ => ?_
    rw [Bool.and_eq_decide, decide_eq_decide, decide_eq_true_iff, decide_eq_true_iff]
    exact ⟨fun h => ⟨h, .head hab h⟩, fun h => h.1⟩
  rw [hfilter]
  refine List.length_filter_lt_length_iff_exists.mpr ⟨b, mem_below.mpr ⟨hb, .single hab⟩, ?_⟩
  rw [decide_eq_true_iff]
  exact hacyclic

theorem exists_rank (hks : ∀ a b, r a b → b ∈ ks) (hacyclic : Acyclic r) :
    ∃ rank : α → ℕ, ∀ a b, r a b → rank b < rank a :=
  ⟨fun a => (below r ks a).length, fun a b hab => length_below_lt (hks a b hab) hab (hacyclic b)⟩

theorem acyclic_of_rank {rank : α → ℕ} (hrank : ∀ a b, r a b → rank b < rank a) : Acyclic r := by
  have hdown : ∀ {a b}, TransGen r a b → rank b < rank a := by
    intro a b h
    induction h with
    | single hab => exact hrank _ _ hab
    | tail _ hbc ih => exact Nat.lt_trans (hrank _ _ hbc) ih
  intro a hcycle
  exact Nat.lt_irrefl _ (hdown hcycle)

/-! ## More edges -/

/-- The relation with the edges of another one. -/
def Joined (r s : α → α → Prop) (a b : α) : Prop := r a b ∨ s a b

variable {s : α → α → Prop}

theorem transGen_or {a b : α} (h : TransGen (Joined r s) a b) :
    TransGen r a b ∨
      ∃ x y, s x y ∧ ReflTransGen (Joined r s) a x ∧ ReflTransGen (Joined r s) y b := by
  induction h with
  | single hab =>
    rcases hab with hr | hs
    · exact .inl (.single hr)
    · exact .inr ⟨_, _, hs, .refl, .refl⟩
  | @tail b c hab hbc ih =>
    rcases hbc with hr | hs
    · rcases ih with hway | ⟨x, y, hxy, hax, hyb⟩
      · exact .inl (hway.tail hr)
      · exact .inr ⟨x, y, hxy, hax, hyb.tail (.inl hr)⟩
    · exact .inr ⟨b, c, hs, hab.to_reflTransGen, .refl⟩

/-- The union has a cycle if and only if the first relation has one, or a step of the second leads
back to where it starts. -/
theorem acyclic_joined :
    Acyclic (Joined r s) ↔
      Acyclic r ∧ ∀ x y, s x y → ¬ReflTransGen (Joined r s) y x := by
  constructor
  · refine fun h => ⟨fun a hcycle => ?_, fun x y hxy hback => ?_⟩
    · exact h a (TransGen.mono (fun _ _ hr => .inl hr) _ _ hcycle)
    · exact h x (.head' (.inr hxy) hback)
  · rintro ⟨hr, hs⟩ a hcycle
    rcases transGen_or hcycle with hway | ⟨x, y, hxy, hax, hya⟩
    · exact hr a hway
    · exact hs x y hxy (hya.trans hax)

/-- The only way that an edge from `x` to `y` closes is one from `y` to `x`. -/
theorem way_around {x y a b : α} (h : ReflTransGen (Joined r fun a b => a = x ∧ b = y) a b) :
    ReflTransGen r a b ∨ ReflTransGen r y b := by
  induction h with
  | refl => exact .inl .refl
  | tail _ hbc ih =>
    rcases hbc with hr | ⟨-, rfl⟩
    · exact ih.imp (·.tail hr) (·.tail hr)
    · exact .inr .refl

theorem acyclic_insert {x y : α} (hr : Acyclic r) (hback : ¬ReflTransGen r y x) :
    Acyclic (Joined r fun a b => a = x ∧ b = y) := by
  refine acyclic_joined.mpr ⟨hr, ?_⟩
  rintro a b ⟨rfl, rfl⟩ hway
  rcases way_around hway with h | h <;> exact hback h

end Relations
end Lib
end ZeroRuntime
