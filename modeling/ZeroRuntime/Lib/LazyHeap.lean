import Mathlib.Data.Prod.Lex
import Mathlib.Data.List.Sort

/-!
# ZeroRuntime.Lib.LazyHeap

Priority queues with lazy deletion: a heap of entries `(rank, seq, key)`, smallest first, in which
an entry is never taken out of the middle. Which keys are live is kept elsewhere; an entry of a key
that is not live is skipped when it comes to the front, and an entry whose rank is no longer its
key's rank is stale.

What the order is worth depends on the stale entries alone. `Fronts h k r` says that no entry of
`k` in `h` ranks before `r`; with it for every live key, the first live entry belongs to a key of
least rank (`rank_le_of_first`).
-/

namespace ZeroRuntime
namespace Lib

structure HeapEntry (ρ κ : Type) where
  rank : ρ
  seq : ℕ
  key : κ
deriving DecidableEq

namespace HeapEntry

variable {ρ κ : Type} [LinearOrder ρ]

/-- Entries are compared as the tuples `(rank, seq)`. -/
def Le (a b : HeapEntry ρ κ) : Prop := toLex (a.rank, a.seq) ≤ toLex (b.rank, b.seq)

instance : DecidableRel (Le : HeapEntry ρ κ → HeapEntry ρ κ → Prop) :=
  fun a b => inferInstanceAs (Decidable (toLex (a.rank, a.seq) ≤ toLex (b.rank, b.seq)))

instance : Std.Total (Le : HeapEntry ρ κ → HeapEntry ρ κ → Prop) := ⟨fun _ _ => le_total _ _⟩

instance : IsTrans (HeapEntry ρ κ) Le := ⟨fun _ _ _ => le_trans⟩

theorem Le.rank_le {a b : HeapEntry ρ κ} (h : a.Le b) : a.rank ≤ b.rank := by
  rcases Prod.Lex.le_iff.mp h with h | ⟨h, -⟩
  · exact le_of_lt h
  · exact le_of_eq h

end HeapEntry

/-- A heap as the list of its entries in the order they are taken out. -/
structure LazyHeap (ρ κ : Type) [LinearOrder ρ] where
  entries : List (HeapEntry ρ κ)
  sorted : entries.Pairwise HeapEntry.Le

namespace LazyHeap

variable {ρ κ : Type} [LinearOrder ρ]

def empty : LazyHeap ρ κ := ⟨[], .nil⟩

def push (h : LazyHeap ρ κ) (e : HeapEntry ρ κ) : LazyHeap ρ κ :=
  ⟨h.entries.orderedInsert HeapEntry.Le e, h.sorted.orderedInsert e _⟩

/-- The heap after some entries were taken from its front. -/
def dropTo (h : LazyHeap ρ κ) (es : List (HeapEntry ρ κ)) (hs : es <:+ h.entries) :
    LazyHeap ρ κ :=
  ⟨es, h.sorted.sublist hs.sublist⟩

variable {h : LazyHeap ρ κ} {e : HeapEntry ρ κ}

@[simp] theorem mem_push {x : HeapEntry ρ κ} :
    x ∈ (h.push e).entries ↔ x = e ∨ x ∈ h.entries := List.mem_orderedInsert _

theorem head_push (he : h.entries.head? = some e) (x : HeapEntry ρ κ) :
    (h.push x).entries.head? = some (if x.Le e then x else e) := by
  obtain ⟨es, hs⟩ := h
  cases es with
  | nil => cases he
  | cons y ys =>
    cases he
    change (List.orderedInsert HeapEntry.Le x (e :: ys)).head? = _
    rw [List.orderedInsert_cons]
    split <;> rfl

/-- An entry that ranks behind the first one is pushed behind it. -/
theorem head_push_of_lt {x : HeapEntry ρ κ} (he : h.entries.head? = some e) (hlt : e.rank < x.rank)
    : (h.push x).entries.head? = some e := by
  have hnot : ¬x.Le e := fun hle => absurd hle.rank_le (not_le.mpr hlt)
  rw [head_push he, if_neg hnot]

/-- The first entry after a push is the one pushed, or the first one before. -/
theorem head_push_cases (h : LazyHeap ρ κ) (x : HeapEntry ρ κ) :
    ∃ e, (h.push x).entries.head? = some e ∧ e.rank ≤ x.rank ∧
      (e = x ∨ h.entries.head? = some e) := by
  cases he : h.entries.head? with
  | none =>
    refine ⟨x, ?_, le_rfl, .inl rfl⟩
    change (List.orderedInsert HeapEntry.Le x h.entries).head? = _
    rw [List.head?_eq_none_iff.mp he]
    rfl
  | some y =>
    rw [head_push he]
    by_cases hle : x.Le y
    · exact ⟨x, by rw [if_pos hle], le_rfl, .inl rfl⟩
    · exact ⟨y, by rw [if_neg hle], ((Std.Total.total x y).resolve_left hle).rank_le, .inr rfl⟩

/-- No entry of key `k` ranks before `r`. -/
def Fronts (h : LazyHeap ρ κ) (k : κ) (r : ρ) : Prop :=
  ∀ e ∈ h.entries, e.key = k → r ≤ e.rank

instance [DecidableEq κ] (h : LazyHeap ρ κ) (k : κ) (r : ρ) : Decidable (h.Fronts k r) :=
  inferInstanceAs (Decidable (∀ e ∈ h.entries, e.key = k → r ≤ e.rank))

/-- Some entry of key `k` has rank `r`. -/
def Has (h : LazyHeap ρ κ) (k : κ) (r : ρ) : Prop :=
  ∃ e ∈ h.entries, e.key = k ∧ e.rank = r

theorem has_push_self (h : LazyHeap ρ κ) (e : HeapEntry ρ κ) : (h.push e).Has e.key e.rank :=
  ⟨e, mem_push.mpr (.inl rfl), rfl, rfl⟩

variable {k : κ} {r : ρ}

theorem Has.push (hh : h.Has k r) (e : HeapEntry ρ κ) : (h.push e).Has k r := by
  obtain ⟨x, hx, hk, hr⟩ := hh
  exact ⟨x, mem_push.mpr (.inr hx), hk, hr⟩

theorem Fronts.push_self (hf : h.Fronts e.key e.rank) : (h.push e).Fronts e.key e.rank := by
  intro x hx hk
  rcases mem_push.mp hx with rfl | hx
  · exact le_rfl
  · exact hf x hx hk

theorem Fronts.push_of_ne (hf : h.Fronts k r) (hne : e.key ≠ k) : (h.push e).Fronts k r := by
  intro x hx hk
  rcases mem_push.mp hx with rfl | hx
  · exact absurd hk hne
  · exact hf x hx hk

variable {es : List (HeapEntry ρ κ)}

/-- Taking entries away makes no stale entry. -/
theorem Fronts.dropTo (hf : h.Fronts k r) (hs : es <:+ h.entries) : (h.dropTo es hs).Fronts k r :=
  fun e he hk => hf e (hs.subset he) hk

/-- The first entry of a heap belongs to the key of least rank, among the keys that have an entry
of their rank in the heap, once no stale entry of the first key ranks before its own rank. -/
theorem rank_le_of_first (hs : (e :: es).Pairwise HeapEntry.Le) (hr : r ≤ e.rank) {r' : ρ}
    (hk : ∃ x ∈ e :: es, x.key = k ∧ x.rank = r') : r ≤ r' := by
  obtain ⟨x, hx, -, rfl⟩ := hk
  rcases List.mem_cons.mp hx with rfl | hx
  · exact hr
  · exact hr.trans ((List.pairwise_cons.mp hs).1 x hx).rank_le

end LazyHeap
end Lib
end ZeroRuntime
