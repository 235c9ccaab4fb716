import ZeroRuntime.Lib.Dict
import ZeroRuntime.Lib.Written

/-!
# ZeroRuntime.Lib.Merge

`d.update(updates)` on the entries of a mapping.

* `find_merge`: a key has its value from the updates, if they have it. `find_merge_of_not_mem` needs
  no more than that they do not.
* `writable_merge`: what can be written stays so exactly if the updates can be written.
-/

namespace ZeroRuntime
namespace Lib
namespace Val

/-- The mapping with each of the updates in turn. -/
def merge (base updates : List (String × Val)) : List (String × Val) :=
  updates.foldl (fun acc e => put e.1 e.2 acc) base

theorem merge_cons (base : List (String × Val)) (e : String × Val)
    (updates : List (String × Val)) : merge base (e :: updates) = merge (put e.1 e.2 base) updates :=
  rfl

variable {kvs : List (String × Val)}

variable {k : String}

theorem find_eq_none_iff : find k kvs = Option.none ↔ k ∉ kvs.map Prod.fst := by
  induction kvs with
  | nil => simp [find]
  | cons e kvs ih =>
    obtain ⟨k', v⟩ := e
    rw [find, List.map_cons, List.mem_cons, not_or]
    by_cases hk : k = k'
    · rw [if_pos hk]
      exact ⟨fun h => (by cases h), fun h => absurd hk h.1⟩
    · rw [if_neg hk, ih]
      exact ⟨fun h => ⟨hk, h⟩, fun h => h.2⟩

theorem mem_of_find {v : Val} (h : find k kvs = some v) : (k, v) ∈ kvs := by
  induction kvs with
  | nil => cases h
  | cons e kvs ih =>
    obtain ⟨k', v'⟩ := e
    rw [find] at h
    split at h
    · rename_i hk
      cases h
      rw [hk]
      exact List.mem_cons_self
    · exact List.mem_cons_of_mem _ (ih h)

variable {updates : List (String × Val)}

theorem find_merge_of_not_mem (h : k ∉ updates.map Prod.fst) (base : List (String × Val)) :
    find k (merge base updates) = find k base := by
  induction updates generalizing base with
  | nil => rfl
  | cons e updates ih =>
    rw [List.map_cons, List.mem_cons, not_or] at h
    rw [merge_cons, ih h.2, find_put, if_neg h.1]

theorem find_merge (hnodup : (updates.map Prod.fst).Nodup) (base : List (String × Val)) :
    find k (merge base updates) = (find k updates).or (find k base) := by
  induction updates generalizing base with
  | nil => rfl
  | cons e updates ih =>
    obtain ⟨k', v⟩ := e
    obtain ⟨hk', hnodup⟩ := List.nodup_cons.mp hnodup
    rw [merge_cons, find]
    by_cases hk : k = k'
    · rw [if_pos hk, hk, find_merge_of_not_mem hk', find_put, if_pos rfl]
      rfl
    · rw [if_neg hk, ih hnodup, find_put, if_neg hk]

variable {e : String × Val}

theorem mem_merge :
    ∀ {base : List (String × Val)}, e ∈ merge base updates → e ∈ base ∨ e ∈ updates := by
  induction updates with
  | nil => exact fun h => Or.inl h
  | cons u updates ih =>
    intro base h
    rcases ih h with h | h
    · rcases mem_put h with h | h
      · exact Or.inr (h ▸ List.mem_cons_self)
      · exact Or.inl h
    · exact Or.inr (List.mem_cons_of_mem u h)

theorem find_of_mem (hnodup : (kvs.map Prod.fst).Nodup) (h : e ∈ kvs) :
    find e.1 kvs = some e.2 := by
  induction kvs with
  | nil => cases h
  | cons a kvs ih =>
    obtain ⟨hnot, hnodup⟩ := List.nodup_cons.mp hnodup
    rcases List.mem_cons.mp h with rfl | h
    · exact if_pos rfl
    · have hne : e.1 ≠ a.1 := fun heq => hnot (heq ▸ List.mem_map_of_mem h)
      exact (if_neg hne).trans (ih hnodup h)

theorem mem_merge_of_mem (hnodup : (updates.map Prod.fst).Nodup) (base : List (String × Val))
    (h : e ∈ updates) : e ∈ merge base updates := by
  have hfind : find e.1 (merge base updates) = some e.2 := by
    rw [find_merge hnodup, find_of_mem hnodup h]
    rfl
  exact mem_of_find hfind

/-- Updates with new keys come after the rest. -/
theorem merge_of_new (hnodup : (updates.map Prod.fst).Nodup) :
    ∀ {base : List (String × Val)}, (∀ k ∈ updates.map Prod.fst, k ∉ base.map Prod.fst) →
      merge base updates = base ++ updates := by
  induction updates with
  | nil => exact fun _ => (List.append_nil _).symm
  | cons e updates ih =>
    intro base hnew
    obtain ⟨hnot, hnodup⟩ := List.nodup_cons.mp hnodup
    rw [merge_cons, put_of_not_mem (hnew e.1 List.mem_cons_self), ih hnodup, List.append_assoc]
    · rfl
    · intro k hk hmem
      rw [List.map_append, List.mem_append] at hmem
      rcases hmem with hmem | hmem
      · exact hnew k (List.mem_cons_of_mem _ hk) hmem
      · exact hnot (List.mem_singleton.mp hmem ▸ hk)

theorem merge_nil (hnodup : (updates.map Prod.fst).Nodup) : merge [] updates = updates :=
  merge_of_new hnodup fun _ _ h => by cases h

theorem nodup_merge :
    ∀ {base : List (String × Val)}, (base.map Prod.fst).Nodup →
      ((merge base updates).map Prod.fst).Nodup := by
  induction updates with
  | nil => exact fun h => h
  | cons e updates ih => exact fun h => ih (nodup_put h)

theorem writableEntries_iff : writableEntries kvs = true ↔ ∀ e ∈ kvs, e.2.writable = true := by
  rw [writableEntries_eq_all, List.all_eq_true]

theorem writable_merge {base : List (String × Val)} (hnodup : (updates.map Prod.fst).Nodup)
    (hbase : writableEntries base = true) :
    writableEntries (merge base updates) = true ↔ writableEntries updates = true := by
  rw [writableEntries_iff] at hbase ⊢
  rw [writableEntries_iff]
  constructor
  · exact fun h e he => h e (mem_merge_of_mem hnodup base he)
  · intro h e he
    rcases mem_merge he with he | he
    · exact hbase e he
    · exact h e he

end Val
end Lib
end ZeroRuntime
