import ZeroRuntime.Lib.Dict

/-!
# ZeroRuntime.Lib.Reasons

Validators that collect reasons: a record is valid if none is found.

* `missing_eq_nil`, `found_eq_nil`: a check that adds one reason or none.
* `keyedReasons`: the check of one record of a registry, which is kept under its own key.
* `registry_eq_nil`: a registry with an order list is valid if and only if the order names its keys
  and every record is valid under its key.
-/

namespace ZeroRuntime
namespace Lib

theorem missing_eq_nil {p : Prop} [Decidable p] {x : String} :
    (if p then [] else [x]) = [] ↔ p := by
  by_cases hp : p
  · rw [if_pos hp]
    exact ⟨fun _ => hp, fun _ => rfl⟩
  · rw [if_neg hp]
    exact ⟨(fun h => by cases h), fun h => absurd h hp⟩

theorem found_eq_nil {p : Prop} [Decidable p] {x : String} :
    (if p then [x] else []) = [] ↔ ¬p := by
  by_cases hp : p
  · rw [if_pos hp]
    exact ⟨(fun h => by cases h), fun h => absurd hp h⟩
  · rw [if_neg hp]
    exact ⟨fun _ => hp, fun _ => rfl⟩

/-- `set(order) == set(keys)` -/
def SameKeys (order keys : List String) : Prop := (∀ k ∈ order, k ∈ keys) ∧ ∀ k ∈ keys, k ∈ order

instance (order keys : List String) : Decidable (SameKeys order keys) := by
  unfold SameKeys
  infer_instance

variable {α : Type}

variable {d : Dict String α}

theorem sameKeys_iff {order : List String} :
    SameKeys order d.keys ↔ ∀ id, id ∈ order ↔ d.contains id = true := by
  unfold SameKeys
  simp only [Dict.mem_keys, Dict.contains_iff]
  exact ⟨fun h id => ⟨h.1 id, h.2 id⟩, fun h => ⟨fun id => (h id).mp, fun id => (h id).mpr⟩⟩

/-- What is found about the record under a key. -/
def keyedReasons (mismatch : String) (key : α → String) (check : α → List String)
    (d : Dict String α) (id : String) : List String :=
  match d.get? id with
  | some x =>
    if key x = id then (check x).map fun reason => id ++ ":" ++ reason else [mismatch ++ id]
  | none => [mismatch ++ id]

variable {check : α → List String}

theorem keyedReasons_eq_nil {mismatch : String} {key : α → String} {id : String} :
    keyedReasons mismatch key check d id = [] ↔
      ∃ x, d.get? id = some x ∧ key x = id ∧ check x = [] := by
  unfold keyedReasons
  cases hx : d.get? id with
  | none =>
    refine ⟨(fun h => by cases h), ?_⟩
    rintro ⟨x, hx', -⟩
    cases hx'
  | some x =>
    dsimp only
    split
    · rename_i hkey
      rw [List.map_eq_nil_iff]
      constructor
      · exact fun h => ⟨x, rfl, hkey, h⟩
      · rintro ⟨x', hx', -, h⟩
        cases hx'
        exact h
    · rename_i hkey
      refine ⟨(fun h => by cases h), ?_⟩
      rintro ⟨x', hx', hkey', -⟩
      cases hx'
      exact absurd hkey' hkey

theorem registry_eq_nil {mismatch : String} {key : α → String} {order : List String}
    (horder : ∀ id, id ∈ order ↔ d.contains id = true) :
    order.flatMap (keyedReasons mismatch key check d) = [] ↔
      ∀ id x, d.get? id = some x → key x = id ∧ check x = [] := by
  rw [List.flatMap_eq_nil_iff]
  simp only [keyedReasons_eq_nil]
  constructor
  · intro h id x hx
    obtain ⟨x', hx', hvalid⟩ := h id ((horder id).mpr (Dict.contains_iff.mpr ⟨x, hx⟩))
    rw [hx] at hx'
    cases hx'
    exact hvalid
  · intro h id hid
    obtain ⟨x, hx⟩ := Dict.contains_iff.mp ((horder id).mp hid)
    exact ⟨x, hx, h id x hx⟩

end Lib
end ZeroRuntime
