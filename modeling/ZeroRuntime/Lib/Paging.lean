import Mathlib.Data.List.Basic

/-!
# ZeroRuntime.Lib.Paging

A list read page by page, where every page is asked for by the key of the last element before it.

* `beyond key xs n`: the elements whose key is above `n`.
* `pages`: what the pages hold, one after the other, until one is empty.
* `pages_eq`: where the keys increase, that is what is read in one go.
-/

namespace ZeroRuntime
namespace Lib

variable {α ε : Type}

def beyond (key : α → ℕ) (xs : List α) (n : ℕ) : List α := xs.filter fun x => n < key x

/-- Page after page, `requests` of them at most. -/
def pages (key : α → ℕ) (fetch : ℕ → Except ε (List α)) : ℕ → ℕ → Except ε (List α)
  | 0, _ => .ok []
  | requests + 1, n =>
    match fetch n with
    | .error e => .error e
    | .ok page =>
      match page.getLast? with
      | none => .ok []
      | some last =>
        match pages key fetch requests (key last) with
        | .error e => .error e
        | .ok rest => .ok (page ++ rest)

variable {key : α → ℕ}

theorem beyond_beyond {n m : ℕ} (h : n ≤ m) (xs : List α) :
    beyond key (beyond key xs n) m = beyond key xs m := by
  unfold beyond
  rw [List.filter_filter]
  refine List.filter_congr fun x _ => ?_
  by_cases hm : m < key x
  · have hn : n < key x := Nat.lt_of_le_of_lt h hm
    simp [hm, hn]
  · simp [hm]

variable {xs : List α}

theorem beyond_eq_self {n : ℕ} (h : ∀ x ∈ xs, n < key x) : beyond key xs n = xs :=
  List.filter_eq_self.mpr fun x hx => by simpa using h x hx

theorem beyond_eq_nil {n : ℕ} (h : ∀ x ∈ xs, key x ≤ n) : beyond key xs n = [] :=
  List.filter_eq_nil_iff.mpr fun x hx => by simpa using h x hx

/-- What is above the last key of a first part is the other part. -/
theorem beyond_append {ys : List α} {last : α}
    (hsorted : (xs ++ ys).Pairwise fun x y => key x < key y) (hlast : xs.getLast? = some last) :
    beyond key (xs ++ ys) (key last) = ys := by
  obtain ⟨first, rfl⟩ := List.getLast?_eq_some_iff.mp hlast
  obtain ⟨hfirst, -, hacross⟩ := List.pairwise_append.mp hsorted
  have hbelow : ∀ x ∈ first ++ [last], key x ≤ key last := by
    intro x hx
    rcases List.mem_append.mp hx with hx | hx
    · exact Nat.le_of_lt ((List.pairwise_append.mp hfirst).2.2 x hx last List.mem_cons_self)
    · exact Nat.le_of_eq (congrArg key (List.mem_singleton.mp hx))
  have habove : ∀ y ∈ ys, key last < key y :=
    hacross last (List.mem_append_right first List.mem_cons_self)
  calc beyond key (first ++ [last] ++ ys) (key last)
      = beyond key (first ++ [last]) (key last) ++ beyond key ys (key last) :=
        List.filter_append ..
    _ = [] ++ ys := by rw [beyond_eq_nil hbelow, beyond_eq_self habove]

theorem pages_eq {fetch : ℕ → Except ε (List α)} {size : ℕ} (hsize : 0 < size)
    (hsorted : xs.Pairwise fun x y => key x < key y)
    (hfetch : ∀ n, fetch n = .ok ((beyond key xs n).take size)) {requests n : ℕ}
    (hrequests : (beyond key xs n).length < requests) :
    pages key fetch requests n = .ok (beyond key xs n) := by
  induction requests generalizing n with
  | zero => omega
  | succ requests ih =>
    rw [pages, hfetch n]
    dsimp only
    cases hlast : ((beyond key xs n).take size).getLast? with
    | none =>
      have hnil := List.getLast?_eq_none_iff.mp hlast
      rcases List.take_eq_nil_iff.mp hnil with hzero | hempty
      · omega
      · rw [hempty]
    | some last =>
      have hmem : last ∈ beyond key xs n :=
        List.mem_of_mem_take (List.mem_of_getLast? hlast)
      have habove : n < key last := by simpa using (List.mem_filter.mp hmem).2
      have hsub : (beyond key xs n).Pairwise fun x y => key x < key y := hsorted.filter _
      -- what is left is what follows the page
      have hrest : beyond key xs (key last) = (beyond key xs n).drop size := by
        rw [← beyond_beyond (Nat.le_of_lt habove) xs]
        have hsplit := List.take_append_drop size (beyond key xs n)
        rw [← hsplit] at hsub
        have hdrop := beyond_append hsub hlast
        rwa [hsplit] at hdrop
      have hpos : 0 < (beyond key xs n).length := List.length_pos_of_mem hmem
      have hless : (beyond key xs (key last)).length < requests := by
        rw [hrest, List.length_drop]
        omega
      dsimp only
      rw [ih hless]
      dsimp only
      rw [hrest, List.take_append_drop]

end Lib
end ZeroRuntime
