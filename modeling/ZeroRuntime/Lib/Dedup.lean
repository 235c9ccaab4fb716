import ZeroRuntime.Lib.Value

/-!
# ZeroRuntime.Lib.Dedup

`list(dict.fromkeys(xs))`: no two items that are kept are equal, a list with no equal items is left
as it is (`dedup_of_distinct`), and every item that can be hashed has one that stands for it
(`covered_dedup`).
-/

namespace ZeroRuntime
namespace Lib
namespace Val

/-- No item is equal to one before it. -/
def Distinct (xs : List Val) : Prop := xs.Pairwise fun x y => eq x y = false

/-- Every item of `ys` has an equal one in `xs`. -/
def Covers (xs ys : List Val) : Prop := ∀ y ∈ ys, ∃ x ∈ xs, eq x y = true

theorem distinct_dedup (xs : List Val) : Distinct (dedup xs) := by
  induction xs with
  | nil => exact List.Pairwise.nil
  | cons x xs ih =>
    refine List.Pairwise.cons (fun y hy => ?_) (ih.filter _)
    simpa using (List.mem_filter.mp hy).2

variable {xs : List Val}

theorem dedup_of_distinct (h : Distinct xs) : dedup xs = xs := by
  induction h with
  | nil => rfl
  | cons hx _ ih =>
    rw [dedup, ih, List.filter_eq_self.mpr]
    intro y hy
    rw [hx y hy]
    rfl

theorem dedup_append (xs ys : List Val) :
    dedup (xs ++ ys) = dedup xs ++ (dedup ys).filter fun y => !xs.any fun x => eq x y := by
  induction xs with
  | nil => simp [dedup]
  | cons x xs ih =>
    rw [List.cons_append, dedup, ih, List.filter_append, List.filter_filter, dedup,
      List.cons_append]
    simp only [List.any_cons, Bool.not_or]

/-- Items that are there already are not added. -/
theorem dedup_append_of_covers {ys : List Val} (hxs : Distinct xs) (hys : Covers xs ys) :
    dedup (xs ++ ys) = xs := by
  rw [dedup_append, dedup_of_distinct hxs, List.filter_eq_nil_iff.mpr, List.append_nil]
  intro y hy
  obtain ⟨x, hx, heq⟩ := hys y (mem_dedup hy)
  rw [List.any_eq_true.mpr ⟨x, hx, heq⟩]
  exact Bool.false_ne_true

theorem subset_dedup_append {ys : List Val} (hxs : Distinct xs) : xs ⊆ dedup (xs ++ ys) := by
  intro x hx
  rw [dedup_append, dedup_of_distinct hxs]
  exact List.mem_append_left _ hx

theorem Covers.mono {xs' ys : List Val} (h : Covers xs ys) (hsub : xs ⊆ xs') : Covers xs' ys := by
  intro y hy
  obtain ⟨x, hx, heq⟩ := h y hy
  exact ⟨x, hsub hx, heq⟩

/-- What two items that can be hashed are compared by. -/
def hashKey : Val → ℕ × Int × String
  | none => (0, 0, "")
  | bool b => (1, if b then 1 else 0, "")
  | int n => (1, n, "")
  | str s => (2, 0, s)
  | other t _ _ => (3, 0, t)
  | _ => (4, 0, "")

theorem eq_iff_hashKey {x y : Val} (hx : x.hashable = true) (hy : y.hashable = true) :
    eq x y = true ↔ hashKey x = hashKey y := by
  cases x with
  | list xs => cases hx
  | dict kvs => cases hx
  | bool a =>
    cases y with
    | bool b => cases a <;> cases b <;> simp [eq, hashKey]
    | _ => simp [eq, hashKey]
  | _ => cases y <;> simp [eq, hashKey]

theorem covered_dedup (h : xs.all hashable = true) : Covers (dedup xs) xs := by
  induction xs with
  | nil => exact fun y hy => by cases hy
  | cons x xs ih =>
    rw [List.all_cons, Bool.and_eq_true] at h
    obtain ⟨hx, hxs⟩ := h
    intro y hy
    rcases List.mem_cons.mp hy with rfl | hy
    · exact ⟨y, List.mem_cons_self, (eq_iff_hashKey hx hx).mpr rfl⟩
    · obtain ⟨z, hz, heq⟩ := ih hxs y hy
      by_cases hxz : eq x z = true
      · -- what stood for it has been dropped for `x`
        have hzh := List.all_eq_true.mp hxs z (mem_dedup hz)
        have hyh := List.all_eq_true.mp hxs y hy
        refine ⟨x, List.mem_cons_self, (eq_iff_hashKey hx hyh).mpr ?_⟩
        exact ((eq_iff_hashKey hx hzh).mp hxz).trans ((eq_iff_hashKey hzh hyh).mp heq)
      · refine ⟨z, List.mem_cons_of_mem _ (List.mem_filter.mpr ⟨hz, ?_⟩), heq⟩
        rw [Bool.eq_false_iff.mpr hxz]
        rfl

theorem all_hashable_dedup (h : xs.all hashable = true) : (dedup xs).all hashable = true :=
  List.all_eq_true.mpr fun x hx => List.all_eq_true.mp h x (mem_dedup hx)

/-- Writing what is there changes nothing. -/
theorem put_of_find {k : String} {v : Val} {kvs : List (String × Val)}
    (h : find k kvs = some v) : put k v kvs = kvs := by
  induction kvs with
  | nil => cases h
  | cons e kvs ih =>
    obtain ⟨k', v'⟩ := e
    rw [find] at h
    rw [put]
    split
    · rename_i hk
      rw [if_pos hk] at h
      rw [Option.some.inj h, hk]
    · rename_i hk
      rw [if_neg hk] at h
      rw [ih h]

end Val
end Lib
end ZeroRuntime
