import Mathlib.Data.List.Nodup

/-!
# ZeroRuntime.Lib.Dict

Insertion-ordered finite maps, as a scripting language's dictionaries are: assigning to a key that
is present keeps its place, assigning to a new key appends it. That no key occurs twice is a field
of the structure, so every lemma is about `get?` alone.
-/

namespace ZeroRuntime
namespace Lib

structure Dict (κ α : Type) where
  entries : List (κ × α)
  nodup : (entries.map Prod.fst).Nodup

namespace Dict

variable {κ α : Type}

variable {d : Dict κ α}

theorem ext_entries {d' : Dict κ α} (h : d.entries = d'.entries) : d = d' := by
  cases d
  cases d'
  cases h
  rfl

def empty : Dict κ α := ⟨[], List.nodup_nil⟩

def keys (d : Dict κ α) : List κ := d.entries.map Prod.fst

def values (d : Dict κ α) : List α := d.entries.map Prod.snd

variable [DecidableEq κ]

/-- The value of the first entry for `k`. -/
def find (k : κ) : List (κ × α) → Option α
  | [] => none
  | e :: es => if k = e.1 then some e.2 else find k es

def get? (d : Dict κ α) (k : κ) : Option α := find k d.entries

def contains (d : Dict κ α) (k : κ) : Bool := (d.get? k).isSome

/-- The entries after `d[k] = v`. -/
def setEntries (k : κ) (v : α) : List (κ × α) → List (κ × α)
  | [] => [(k, v)]
  | e :: es => if e.1 = k then (k, v) :: es else e :: setEntries k v es

variable {k : κ} {v : α} {es : List (κ × α)}

theorem mem_fst_setEntries {x : κ} :
    x ∈ (setEntries k v es).map Prod.fst ↔ x = k ∨ x ∈ es.map Prod.fst := by
  induction es with
  | nil => simp [setEntries]
  | cons e es ih =>
    by_cases h : e.1 = k
    · simp only [setEntries, h, if_true, List.map_cons, List.mem_cons]; tauto
    · simp only [setEntries, h, if_false, List.map_cons, List.mem_cons, ih]; tauto

theorem nodup_setEntries (k : κ) (v : α) (h : (es.map Prod.fst).Nodup) :
    ((setEntries k v es).map Prod.fst).Nodup := by
  induction es with
  | nil => simp [setEntries]
  | cons e es ih =>
    obtain ⟨hne, hes⟩ := List.nodup_cons.mp h
    by_cases hk : e.1 = k
    · subst hk; simpa [setEntries] using h
    · simp only [setEntries, hk, if_false, List.map_cons, List.nodup_cons]
      refine ⟨fun hm => ?_, ih hes⟩
      rcases mem_fst_setEntries.mp hm with h' | h'
      · exact hk h'
      · exact hne h'

/-- `d[k] = v` -/
def set (d : Dict κ α) (k : κ) (v : α) : Dict κ α :=
  ⟨setEntries k v d.entries, nodup_setEntries k v d.nodup⟩

/-- `d.pop(k, None)` -/
def erase (d : Dict κ α) (k : κ) : Dict κ α :=
  ⟨d.entries.filter (fun e => e.1 ≠ k), d.nodup.sublist (List.filter_sublist.map _)⟩

/-- Changing every value. -/
def mapValues {β : Type} (f : α → β) (d : Dict κ α) : Dict κ β where
  entries := d.entries.map fun e => (e.1, f e.2)
  nodup := by
    rw [List.map_map]
    exact d.nodup

/-- Changing the value a key is mapped to, if there is one. -/
def modify (d : Dict κ α) (k : κ) (f : α → α) : Dict κ α :=
  match d.get? k with
  | some v => d.set k (f v)
  | none => d

@[simp] theorem get?_empty (k : κ) : (empty : Dict κ α).get? k = none := rfl

theorem find_setEntries (k k' : κ) (v : α) (es : List (κ × α)) :
    find k' (setEntries k v es) = if k' = k then some v else find k' es := by
  induction es with
  | nil => simp [setEntries, find]
  | cons e es ih =>
    by_cases ha : e.1 = k
    · subst ha
      by_cases h : k' = e.1 <;> simp [setEntries, find, h]
    · simp only [setEntries, ha, if_false, find, ih]
      by_cases h : k' = e.1
      · subst h; simp [ha]
      · simp [h]

theorem find_eq_none : find k es = none ↔ k ∉ es.map Prod.fst := by
  induction es with
  | nil => exact ⟨fun _ => List.not_mem_nil, fun _ => rfl⟩
  | cons e es ih =>
    rw [find, List.map_cons, List.mem_cons, not_or, ← ih]
    split
    · rename_i heq
      exact ⟨(fun h => by cases h), fun h => absurd heq h.1⟩
    · rename_i hne
      exact ⟨fun h => ⟨hne, h⟩, fun h => h.2⟩

@[simp] theorem get?_set (d : Dict κ α) (k k' : κ) (v : α) :
    (d.set k v).get? k' = if k' = k then some v else d.get? k' :=
  find_setEntries k k' v d.entries

theorem length_setEntries (k : κ) (v : α) (es : List (κ × α)) :
    (setEntries k v es).length = if (find k es).isSome then es.length else es.length + 1 := by
  induction es with
  | nil => rfl
  | cons e es ih =>
    by_cases ha : e.1 = k
    · subst ha; simp [setEntries, find]
    · simp only [setEntries, ha, if_false, find, Ne.symm ha, List.length_cons, ih]
      split <;> rfl

/-- Assigning to a key that is present keeps the number of entries. -/
theorem length_set (d : Dict κ α) (k : κ) (v : α) :
    (d.set k v).entries.length =
      if d.contains k then d.entries.length else d.entries.length + 1 :=
  length_setEntries k v d.entries

theorem setEntries_of_find_none (h : find k es = none) : setEntries k v es = es ++ [(k, v)] := by
  induction es with
  | nil => rfl
  | cons e es ih =>
    rw [find] at h
    split at h
    · cases h
    · rename_i hne
      rw [setEntries, if_neg (Ne.symm hne), ih h, List.cons_append]

/-- Assigning to a new key appends it. -/
theorem entries_set_of_new (h : d.contains k = false) :
    (d.set k v).entries = d.entries ++ [(k, v)] :=
  setEntries_of_find_none (Option.isNone_iff_eq_none.mp (by simpa [contains, get?] using h))

theorem find_filter_ne (k k' : κ) (es : List (κ × α)) :
    find k' (es.filter (fun e => e.1 ≠ k)) = if k' = k then none else find k' es := by
  induction es with
  | nil => simp [find]
  | cons e es ih =>
    by_cases ha : e.1 = k
    · subst ha
      rw [List.filter_cons_of_neg (by simp), ih]
      by_cases h : k' = e.1 <;> simp [find, h]
    · rw [List.filter_cons_of_pos (by simpa using ha), find, find, ih]
      by_cases h : k' = e.1
      · subst h; simp [ha]
      · simp [h]

@[simp] theorem get?_erase (d : Dict κ α) (k k' : κ) :
    (d.erase k).get? k' = if k' = k then none else d.get? k' :=
  find_filter_ne k k' d.entries

@[simp] theorem get?_modify (d : Dict κ α) (k k' : κ) (f : α → α) :
    (d.modify k f).get? k' = if k' = k then (d.get? k).map f else d.get? k' := by
  unfold modify
  split
  · rename_i v hv
    simp [hv]
  · rename_i hv
    by_cases h : k' = k
    · subst h; simp [hv]
    · simp [h]

theorem modify_of_get? (f : α → α) (h : d.get? k = some v) : d.modify k f = d.set k (f v) := by
  unfold modify
  rw [h]

theorem mem_iff_find (hes : (es.map Prod.fst).Nodup) : (k, v) ∈ es ↔ find k es = some v := by
  induction es with
  | nil => simp [find]
  | cons e es ih =>
    obtain ⟨a, b⟩ := e
    obtain ⟨hne, hes'⟩ := List.nodup_cons.mp hes
    rw [List.mem_cons, find]
    by_cases h : k = a
    · subst h
      have : (k, v) ∉ es := fun hm => hne (List.mem_map.mpr ⟨_, hm, rfl⟩)
      simp [this, eq_comm]
    · simpa [h] using ih hes'

theorem mem_entries : (k, v) ∈ d.entries ↔ d.get? k = some v :=
  mem_iff_find d.nodup

theorem mem_keys : k ∈ d.keys ↔ ∃ v, d.get? k = some v := by
  simp only [keys, List.mem_map, Prod.exists, ← mem_entries]
  constructor
  · rintro ⟨a, v, h, rfl⟩; exact ⟨v, h⟩
  · rintro ⟨v, h⟩; exact ⟨k, v, h, rfl⟩

theorem mem_values : v ∈ d.values ↔ ∃ k, d.get? k = some v := by
  simp only [values, List.mem_map, Prod.exists, exists_eq_right, mem_entries]

theorem contains_iff : d.contains k = true ↔ ∃ v, d.get? k = some v := by
  simp [contains, Option.isSome_iff_exists]

theorem contains_set (d : Dict κ α) (k k' : κ) (v : α) :
    (d.set k v).contains k' = true ↔ k' = k ∨ d.contains k' = true := by
  unfold contains
  rw [get?_set]
  split
  · rename_i hk
    exact ⟨fun _ => .inl hk, fun _ => rfl⟩
  · rename_i hk
    exact ⟨.inr, fun h => h.resolve_left hk⟩

theorem contains_modify (d : Dict κ α) (k k' : κ) (f : α → α) :
    (d.modify k f).contains k' = d.contains k' := by
  unfold contains
  rw [get?_modify]
  split
  · rename_i hk
    rw [hk, Option.isSome_map]
  · rfl

theorem setEntries_of_find (h : find k es = some v) : setEntries k v es = es := by
  induction es with
  | nil => cases h
  | cons e es ih =>
    rw [find] at h
    split at h
    · rename_i hk
      cases h
      rw [setEntries, if_pos hk.symm, hk]
    · rename_i hne
      rw [setEntries, if_neg (Ne.symm hne), ih h]

/-- Assigning what is there already changes nothing. -/
theorem set_of_get? (h : d.get? k = some v) : d.set k v = d := by
  obtain ⟨es, hnodup⟩ := d
  have hentries := setEntries_of_find (show find k es = some v from h)
  simp only [set, hentries]

variable {β : Type}

theorem get?_mapValues (f : α → β) (d : Dict κ α) (k : κ) :
    (d.mapValues f).get? k = (d.get? k).map f := by
  unfold get? mapValues
  dsimp only
  induction d.entries with
  | nil => rfl
  | cons e es ih =>
    rw [List.map_cons, find, find]
    split
    · rfl
    · exact ih

omit [DecidableEq κ] in
@[simp] theorem keys_mapValues (f : α → β) (d : Dict κ α) : (d.mapValues f).keys = d.keys := by
  unfold keys mapValues
  rw [List.map_map]
  rfl

omit [DecidableEq κ] in
theorem mapValues_mapValues {γ : Type} (f : α → β) (g : β → γ) (d : Dict κ α) :
    (d.mapValues f).mapValues g = d.mapValues fun v => g (f v) := by
  refine ext_entries ?_
  change (d.entries.map _).map _ = d.entries.map _
  rw [List.map_map]
  rfl

theorem map_setEntries (f : α → β) (k : κ) (v : α) (es : List (κ × α)) :
    ((setEntries k v es).map fun e => (e.1, f e.2)) =
      setEntries k (f v) (es.map fun e => (e.1, f e.2)) := by
  induction es with
  | nil => rfl
  | cons e es ih =>
    rw [setEntries, List.map_cons, setEntries]
    by_cases hk : e.1 = k
    · rw [if_pos hk, if_pos hk, List.map_cons]
    · rw [if_neg hk, if_neg hk, List.map_cons, ih]

theorem mapValues_set (f : α → β) (d : Dict κ α) (k : κ) (v : α) :
    (d.set k v).mapValues f = (d.mapValues f).set k (f v) :=
  ext_entries (map_setEntries f k v d.entries)

theorem fst_setEntries_of_mem (v : α) (h : k ∈ es.map Prod.fst) :
    (setEntries k v es).map Prod.fst = es.map Prod.fst := by
  induction es with
  | nil => cases h
  | cons e es ih =>
    rw [setEntries]
    by_cases hk : e.1 = k
    · rw [if_pos hk, List.map_cons, List.map_cons, hk]
    · rw [List.map_cons, List.mem_cons] at h
      rw [if_neg hk, List.map_cons, List.map_cons, ih (h.resolve_left (Ne.symm hk))]

theorem keys_set_of_mem (v : α) (h : k ∈ d.keys) :
    (d.set k v).keys = d.keys := fst_setEntries_of_mem v h

theorem keys_set_of_not_mem (v : α) (h : k ∉ d.keys) : (d.set k v).keys = d.keys ++ [k] := by
  have hnew : d.contains k = false := by
    rw [← Bool.not_eq_true, contains_iff, ← mem_keys]
    exact h
  unfold keys
  rw [entries_set_of_new hnew, List.map_append]
  rfl

/-- Values filed one after the other, under keys that are new. -/
theorem entries_foldl_set {key : α → κ} {xs : List α} (h : (xs.map key).Nodup)
    (hnew : ∀ x ∈ xs, key x ∉ d.keys) :
    (xs.foldl (fun d x => d.set (key x) x) d).entries =
      d.entries ++ xs.map fun x => (key x, x) := by
  induction xs generalizing d with
  | nil => exact (List.append_nil _).symm
  | cons x xs ih =>
    obtain ⟨hx, hxs⟩ := List.nodup_cons.mp h
    have hfresh : d.contains (key x) = false := by
      rw [← Bool.not_eq_true, contains_iff, ← mem_keys]
      exact hnew x List.mem_cons_self
    rw [List.foldl_cons, ih hxs, entries_set_of_new hfresh, List.append_assoc]
    · rfl
    · intro y hy hmem
      rw [keys_set_of_not_mem x (hnew x List.mem_cons_self), List.mem_append] at hmem
      rcases hmem with hmem | hmem
      · exact hnew y (List.mem_cons_of_mem x hy) hmem
      · exact hx (List.mem_singleton.mp hmem ▸ List.mem_map_of_mem hy)

/-- The number of values with `p`. -/
def count (d : Dict κ α) (p : α → Bool) : ℕ := d.entries.countP fun e => p e.2

omit [DecidableEq κ] in
@[simp] theorem count_empty (p : α → Bool) : (empty : Dict κ α).count p = 0 := rfl

theorem countP_setEntries (p : α → Bool) (k : κ) (v : α) (es : List (κ × α)) :
    (setEntries k v es).countP (fun e => p e.2) + (((find k es).any p).toNat) =
      es.countP (fun e => p e.2) + (p v).toNat := by
  induction es with
  | nil => cases h : p v <;> simp [setEntries, find, h]
  | cons e es ih =>
    rw [setEntries, find]
    by_cases hk : e.1 = k
    · rw [if_pos hk, if_pos hk.symm, List.countP_cons, List.countP_cons, Option.any_some]
      cases p v <;> cases p e.2 <;> simp
    · rw [if_neg hk, if_neg (Ne.symm hk), List.countP_cons, List.countP_cons]
      omega

/-- Assigning to a key: the value that was there is counted no more, the new one is. -/
theorem count_set (d : Dict κ α) (k : κ) (v : α) (p : α → Bool) :
    (d.set k v).count p + ((d.get? k).any p).toNat = d.count p + (p v).toNat :=
  countP_setEntries p k v d.entries

theorem count_eq_zero {p : α → Bool} : d.count p = 0 ↔ ∀ k v, d.get? k = some v → p v = false := by
  unfold count
  rw [List.countP_eq_zero]
  simp only [Bool.not_eq_true, Prod.forall, mem_entries]

end Dict
end Lib
end ZeroRuntime
