import Mathlib.Data.List.Forall2
import Mathlib.Data.List.Nodup

/-!
# ZeroRuntime.Lib.Keyed

Lists of records that are found by a property: the first record with it is changed in place.

* `modifyFirst p f`: the first element with `p` is replaced by its image under `f`.
* `mem_modifyFirst`: the elements of the result. `forall₂_modifyFirst`: what holds between the old
  and the new records, place by place.
* `find?_key`: in a list without repeated keys the record of a key is the only one.
-/

namespace ZeroRuntime
namespace Lib

variable {α β : Type}

def modifyFirst (p : α → Bool) (f : α → α) : List α → List α
  | [] => []
  | x :: xs => if p x then f x :: xs else x :: modifyFirst p f xs

variable {p : α → Bool} {f : α → α}

theorem map_modifyFirst {g : α → β} (h : ∀ x, g (f x) = g x) (xs : List α) :
    (modifyFirst p f xs).map g = xs.map g := by
  induction xs with
  | nil => rfl
  | cons x xs ih =>
    unfold modifyFirst
    split
    · rw [List.map_cons, List.map_cons, h]
    · rw [List.map_cons, List.map_cons, ih]

variable {xs : List α}

theorem mem_modifyFirst_of_find? {x : α} (h : xs.find? p = some x) : f x ∈ modifyFirst p f xs := by
  induction xs with
  | nil => cases h
  | cons y ys ih =>
    unfold modifyFirst
    by_cases hy : p y = true
    · rw [List.find?_cons_of_pos hy] at h
      cases h
      rw [if_pos hy]
      exact List.mem_cons_self
    · rw [List.find?_cons_of_neg hy] at h
      rw [if_neg hy]
      exact List.mem_cons_of_mem y (ih h)

theorem mem_modifyFirst_other {x : α} (h : x ∈ xs) (hx : p x = false) : x ∈ modifyFirst p f xs := by
  induction xs with
  | nil => cases h
  | cons y ys ih =>
    unfold modifyFirst
    rcases List.mem_cons.mp h with rfl | hmem
    · rw [if_neg (Bool.eq_false_iff.mp hx)]
      exact List.mem_cons_self
    · split
      · exact List.mem_cons_of_mem _ hmem
      · exact List.mem_cons_of_mem y (ih hmem)

variable {R : α → α → Prop}

theorem forall₂_modifyFirst (hrefl : ∀ x, R x x) (hf : ∀ x, p x = true → R x (f x)) (xs : List α) :
    List.Forall₂ R xs (modifyFirst p f xs) := by
  induction xs with
  | nil => exact .nil
  | cons x xs ih =>
    unfold modifyFirst
    split
    · rename_i hx
      exact .cons (hf x hx) (List.forall₂_same.mpr fun x _ => hrefl x)
    · exact .cons (hrefl x) ih

theorem forall₂_trans (htrans : ∀ x y z, R x y → R y z → R x z) {ys zs : List α}
    (h : List.Forall₂ R xs ys) (h' : List.Forall₂ R ys zs) : List.Forall₂ R xs zs := by
  induction h generalizing zs with
  | nil =>
    cases h'
    exact .nil
  | cons hxy _ ih =>
    cases h' with
    | cons hyz hrest => exact .cons (htrans _ _ _ hxy hyz) (ih hrest)

theorem forall₂_mem_right {R : α → β → Prop} {ys : List β} (h : List.Forall₂ R xs ys) {y : β}
    (hy : y ∈ ys) : ∃ x ∈ xs, R x y := by
  induction h with
  | nil => cases hy
  | cons hxy _ ih =>
    rcases List.mem_cons.mp hy with rfl | hmem
    · exact ⟨_, List.mem_cons_self, hxy⟩
    · obtain ⟨x, hx, hr⟩ := ih hmem
      exact ⟨x, List.mem_cons_of_mem _ hx, hr⟩

theorem forall₂_mem_left {R : α → β → Prop} {ys : List β} (h : List.Forall₂ R xs ys) {x : α}
    (hx : x ∈ xs) : ∃ y ∈ ys, R x y :=
  forall₂_mem_right h.flip hx

/-- A key that is kept place by place. -/
theorem forall₂_map_eq {key : α → β} (hkey : ∀ x y, R x y → key y = key x) {ys : List α}
    (h : List.Forall₂ R xs ys) : ys.map key = xs.map key := by
  induction h with
  | nil => rfl
  | cons hxy _ ih => rw [List.map_cons, List.map_cons, hkey _ _ hxy, ih]

section Key

variable {key : α → β}

/-- Two records with one key are the same. -/
theorem eq_of_key {xs : List α} (h : (xs.map key).Nodup) {x y : α} (hx : x ∈ xs) (hy : y ∈ xs)
    (hkey : key x = key y) : x = y :=
  List.inj_on_of_nodup_map h hx hy hkey

variable [DecidableEq β]

theorem find?_key_some {xs : List α} {k : β} {x : α}
    (h : xs.find? (fun y => key y = k) = some x) : x ∈ xs ∧ key x = k :=
  ⟨List.mem_of_find?_eq_some h, of_decide_eq_true (@List.find?_some _ (fun y => key y = k) x xs h)⟩

theorem find?_key {xs : List α} (h : (xs.map key).Nodup) {x : α} (hx : x ∈ xs) :
    xs.find? (fun y => key y = key x) = some x := by
  cases hfound : xs.find? fun y => key y = key x with
  | none =>
    have hnone := List.find?_eq_none.mp hfound x hx
    exact absurd (decide_eq_true rfl) hnone
  | some y =>
    obtain ⟨hy, hkey⟩ := find?_key_some hfound
    exact congrArg some (eq_of_key h hy hx hkey)

/-- In a list without repeated keys, the records after a change of one of them. -/
theorem mem_modifyFirst_key {xs : List α} (h : (xs.map key).Nodup) {k : β} {f : α → α} {y : α}
    (hy : y ∈ modifyFirst (fun x => key x = k) f xs) :
    (y ∈ xs ∧ key y ≠ k) ∨ ∃ x ∈ xs, key x = k ∧ y = f x := by
  induction xs with
  | nil => cases hy
  | cons x xs ih =>
    obtain ⟨hx, hnodup⟩ := List.nodup_cons.mp h
    unfold modifyFirst at hy
    split at hy
    · rename_i hkey
      have hkey := of_decide_eq_true hkey
      rcases List.mem_cons.mp hy with rfl | hmem
      · exact .inr ⟨x, List.mem_cons_self, hkey, rfl⟩
      · refine .inl ⟨List.mem_cons_of_mem x hmem, fun hsame => hx ?_⟩
        rw [hkey, ← hsame]
        exact List.mem_map_of_mem hmem
    · rename_i hkey
      have hkey := of_decide_eq_false (Bool.eq_false_iff.mpr hkey)
      rcases List.mem_cons.mp hy with rfl | hmem
      · exact .inl ⟨List.mem_cons_self, hkey⟩
      · rcases ih hnodup hmem with ⟨hold, hne⟩ | ⟨z, hz, hzkey, rfl⟩
        · exact .inl ⟨List.mem_cons_of_mem x hold, hne⟩
        · exact .inr ⟨z, List.mem_cons_of_mem x hz, hzkey, rfl⟩

end Key

end Lib
end ZeroRuntime
