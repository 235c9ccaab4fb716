import Mathlib.Data.List.Dedup
import Mathlib.Data.List.Sort
import ZeroRuntime.Lib.Text

/-!
# ZeroRuntime.Lib.Sorted

Lists of texts in order: `sorted(xs)` and `sorted(set(xs))`; and `firstBest`, the head of a list that
is sorted by a key.
-/

namespace ZeroRuntime
namespace Lib

instance : Std.Total TextLe := ⟨TextLe.total⟩

instance : IsTrans String TextLe := ⟨fun _ _ _ => TextLe.trans⟩

instance : Std.Antisymm TextLe := ⟨fun _ _ => TextLe.antisymm⟩

/-- `sorted(xs)` -/
def sortTexts (xs : List String) : List String := xs.insertionSort TextLe

/-- `sorted(set(xs))` -/
def sortedSet (xs : List String) : List String := sortTexts xs.dedup

theorem sortTexts_perm (xs : List String) : (sortTexts xs).Perm xs := List.perm_insertionSort _ xs

theorem sortTexts_of_perm {xs ys : List String} (h : xs.Perm ys) : sortTexts xs = sortTexts ys :=
  ((sortTexts_perm xs).trans (h.trans (sortTexts_perm ys).symm)).eq_of_pairwise
    (fun _ _ _ _ hab hba => Std.Antisymm.antisymm _ _ hab hba)
    (List.pairwise_insertionSort TextLe xs) (List.pairwise_insertionSort TextLe ys)

theorem mem_sortedSet {xs : List String} {x : String} : x ∈ sortedSet xs ↔ x ∈ xs := by
  unfold sortedSet
  rw [(sortTexts_perm _).mem_iff, List.mem_dedup]

theorem nodup_sortedSet (xs : List String) : (sortedSet xs).Nodup :=
  (sortTexts_perm _).nodup_iff.mpr (List.nodup_dedup xs)

theorem sortedSet_eq_nil {xs : List String} : sortedSet xs = [] ↔ xs = [] := by
  constructor
  · intro h
    refine List.eq_nil_iff_forall_not_mem.mpr fun x hx => ?_
    have hmem := mem_sortedSet.mpr hx
    rw [h] at hmem
    cases hmem
  · rintro rfl
    rfl

/-- The head of `sorted(xs, key=key)`, for `before x y` as `key(x) < key(y)`. -/
def firstBest {α : Type} (before : α → α → Bool) : List α → Option α
  | [] => none
  | x :: xs =>
    match firstBest before xs with
    | none => some x
    | some best => if before best x then some best else some x

theorem firstBest_eq_none {α : Type} {before : α → α → Bool} {xs : List α} :
    firstBest before xs = none ↔ xs = [] := by
  cases xs with
  | nil => exact ⟨fun _ => rfl, fun _ => rfl⟩
  | cons x xs =>
    refine ⟨fun h => ?_, fun h => by cases h⟩
    unfold firstBest at h
    cases hbest : firstBest before xs with
    | none => rw [hbest] at h; cases h
    | some best =>
      rw [hbest] at h
      dsimp only at h
      split at h <;> cases h

theorem firstBest_mem {α : Type} {before : α → α → Bool} {xs : List α} {x : α}
    (h : firstBest before xs = some x) : x ∈ xs := by
  induction xs with
  | nil => cases h
  | cons y ys ih =>
    unfold firstBest at h
    cases hbest : firstBest before ys with
    | none =>
      rw [hbest] at h
      cases h
      exact List.mem_cons_self
    | some best =>
      rw [hbest] at h
      dsimp only at h
      split at h
      · cases h
        exact List.mem_cons_of_mem y (ih hbest)
      · cases h
        exact List.mem_cons_self

end Lib
end ZeroRuntime
