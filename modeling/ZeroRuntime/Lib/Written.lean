import ZeroRuntime.Lib.Canonical
import ZeroRuntime.Lib.Dict
import ZeroRuntime.Lib.Sorted

/-!
# ZeroRuntime.Lib.Written

What is read back from a JSON file whose keys were sorted when it was written.

* `Val.sorted` is what becomes of a value. `sorted_sorted`: once is enough. `sorted_dict_congr`: the
  order in which a mapping has its entries does not matter.
* `Val.writable`: nothing in the value is of a type that JSON does not have.
* `Dict.sortKeys`: the entries of a dictionary by key. `sortKeys_eq_iff`: two dictionaries with the
  same values are the same once they are sorted.
-/

namespace ZeroRuntime
namespace Lib

/-! ## Values -/

namespace Val

/-- The entries of a mapping as they are read back. -/
def sortedEntries (kvs : List (String × Val)) : List (String × Val) :=
  canonicalEntries (fun _ => false) kvs

@[simp] theorem sorted_str (s : String) : (str s).sorted = str s := rfl

@[simp] theorem sorted_dict (kvs : List (String × Val)) :
    (dict kvs).sorted = dict (sortedEntries kvs) := rfl

@[simp] theorem sortedEntries_nil : sortedEntries [] = [] := rfl

@[simp] theorem sortedEntries_cons (k : String) (x : Val) (kvs : List (String × Val)) :
    sortedEntries ((k, x) :: kvs) = insertEntry (k, x.sorted) (sortedEntries kvs) := by
  unfold sortedEntries sorted
  rw [canonicalEntries, if_neg Bool.false_ne_true]

theorem insertEntry_perm (e : String × Val) (es : List (String × Val)) :
    (insertEntry e es).Perm (e :: es) := by
  induction es with
  | nil => exact List.Perm.refl _
  | cons x es ih =>
    rw [insertEntry]
    split
    · exact List.Perm.refl _
    · exact (ih.cons x).trans (List.Perm.swap e x es)

theorem sortedEntries_perm (kvs : List (String × Val)) :
    (sortedEntries kvs).Perm (kvs.map fun e => (e.1, e.2.sorted)) := by
  induction kvs with
  | nil => exact List.Perm.refl _
  | cons e kvs ih =>
    rw [sortedEntries_cons]
    exact (insertEntry_perm _ _).trans (ih.cons _)

/-- The entries are in the order of their keys. -/
def InOrder (es : List (String × Val)) : Prop := es.Pairwise fun a b => TextLe a.1 b.1

variable {es : List (String × Val)}

theorem inOrder_insertEntry {e : String × Val} (h : InOrder es) : InOrder (insertEntry e es) := by
  induction es with
  | nil => exact List.pairwise_singleton _ _
  | cons x es ih =>
    obtain ⟨hx, hes⟩ := List.pairwise_cons.mp h
    rw [insertEntry]
    split
    · rename_i hle
      refine List.pairwise_cons.mpr ⟨fun y hy => ?_, h⟩
      rcases List.mem_cons.mp hy with rfl | hy
      · exact hle
      · exact hle.trans (hx y hy)
    · rename_i hle
      refine List.pairwise_cons.mpr ⟨fun y hy => ?_, ih hes⟩
      rcases List.mem_cons.mp ((insertEntry_perm e es).mem_iff.mp hy) with rfl | hy
      · exact (TextLe.total x.1 y.1).resolve_right hle
      · exact hx y hy

theorem inOrder_sortedEntries (kvs : List (String × Val)) : InOrder (sortedEntries kvs) := by
  induction kvs with
  | nil => exact List.Pairwise.nil
  | cons e kvs ih =>
    rw [sortedEntries_cons]
    exact inOrder_insertEntry ih

theorem insertEntry_of_le {e : String × Val} (h : ∀ x ∈ es, TextLe e.1 x.1) :
    insertEntry e es = e :: es := by
  cases es with
  | nil => rfl
  | cons x es => rw [insertEntry, if_pos (h x List.mem_cons_self)]

/-- Entries that are in order and sorted themselves stay as they are. -/
theorem sortedEntries_of_inOrder (h : InOrder es) (hsorted : ∀ e ∈ es, e.2.sorted = e.2) :
    sortedEntries es = es := by
  induction es with
  | nil => rfl
  | cons e es ih =>
    obtain ⟨he, hes⟩ := List.pairwise_cons.mp h
    rw [List.forall_mem_cons] at hsorted
    rw [sortedEntries_cons, ih hes hsorted.2, hsorted.1, insertEntry_of_le he]

mutual
theorem sorted_sorted : (x : Val) → x.sorted.sorted = x.sorted
  | .list xs => by
    change list (canonicalItems (fun _ => false) (canonicalItems (fun _ => false) xs)) =
      list (canonicalItems (fun _ => false) xs)
    rw [sorted_sortedItems xs]
  | .dict kvs => by
    rw [sorted_dict, sorted_dict, sortedEntries_of_inOrder (inOrder_sortedEntries kvs)
      (sorted_of_mem kvs)]
  | .none | .bool _ | .int _ | .str _ | .other _ _ _ => rfl

theorem sorted_sortedItems : (xs : List Val) →
    canonicalItems (fun _ => false) (canonicalItems (fun _ => false) xs) =
      canonicalItems (fun _ => false) xs
  | [] => rfl
  | x :: xs => by
    rw [canonicalItems, canonicalItems, sorted_sortedItems xs]
    exact congrArg (· :: _) (sorted_sorted x)

theorem sorted_of_mem : (kvs : List (String × Val)) →
    ∀ e ∈ sortedEntries kvs, e.2.sorted = e.2
  | [], e, he => by cases he
  | (k, x) :: kvs, e, he => by
    rw [sortedEntries_cons] at he
    rcases List.mem_cons.mp ((insertEntry_perm _ _).mem_iff.mp he) with rfl | he
    · exact sorted_sorted x
    · exact sorted_of_mem kvs e he
end

variable {kvs : List (String × Val)}

/-- Where no key occurs twice, the order of the entries does not matter. -/
theorem sortedEntries_congr {kvs' : List (String × Val)} (hkeys : (kvs.map Prod.fst).Nodup)
    (h : (kvs.map fun e => (e.1, e.2.sorted)).Perm (kvs'.map fun e => (e.1, e.2.sorted))) :
    sortedEntries kvs = sortedEntries kvs' := by
  have hperm := (sortedEntries_perm kvs).trans (h.trans (sortedEntries_perm kvs').symm)
  refine hperm.eq_of_pairwise ?_ (inOrder_sortedEntries kvs) (inOrder_sortedEntries kvs')
  intro a b ha hb hab hba
  have hnodup : ((sortedEntries kvs).map Prod.fst).Nodup := by
    have hfst := (sortedEntries_perm kvs).map Prod.fst
    rw [List.map_map] at hfst
    exact hfst.nodup_iff.mpr hkeys
  exact List.inj_on_of_nodup_map hnodup ha (hperm.mem_iff.mpr hb) (hab.antisymm hba)

theorem sorted_dict_congr {kvs' : List (String × Val)} (hkeys : (kvs.map Prod.fst).Nodup)
    (h : (kvs.map fun e => (e.1, e.2.sorted)).Perm (kvs'.map fun e => (e.1, e.2.sorted))) :
    (dict kvs).sorted = (dict kvs').sorted := by
  rw [sorted_dict, sorted_dict, sortedEntries_congr hkeys h]

/-- Entries with the same values once those are sorted. -/
theorem sortedEntries_eq_of_map {kvs' : List (String × Val)}
    (h : (kvs.map fun e => (e.1, e.2.sorted)) = kvs'.map fun e => (e.1, e.2.sorted)) :
    sortedEntries kvs = sortedEntries kvs' := by
  induction kvs generalizing kvs' with
  | nil =>
    cases kvs' with
    | nil => rfl
    | cons e' kvs' => cases h
  | cons e kvs ih =>
    cases kvs' with
    | nil => cases h
    | cons e' kvs' =>
      rw [List.map_cons, List.map_cons, List.cons.injEq, Prod.mk.injEq] at h
      obtain ⟨⟨hkey, hvalue⟩, hrest⟩ := h
      rw [sortedEntries_cons, sortedEntries_cons, ih hrest, hkey, hvalue]

@[simp] theorem sortedEntries_sortedEntries (kvs : List (String × Val)) :
    sortedEntries (sortedEntries kvs) = sortedEntries kvs :=
  Val.dict.inj (sorted_sorted (.dict kvs))

theorem find_insertEntry {e : String × Val} {es : List (String × Val)}
    (h : e.1 ∉ es.map Prod.fst) (k : String) :
    find k (insertEntry e es) = find k (e :: es) := by
  induction es with
  | nil => rfl
  | cons x es ih =>
    rw [List.map_cons, List.mem_cons, not_or] at h
    rw [insertEntry]
    split
    · rfl
    · rw [find, ih h.2, find, find, find]
      by_cases hx : k = x.1
      · have hne : k ≠ e.1 := by
          rintro rfl
          exact h.1 hx
        rw [if_pos hx, if_neg hne, if_pos hx]
      · rw [if_neg hx, if_neg hx]

theorem find_sortedEntries (hkeys : (kvs.map Prod.fst).Nodup) (k : String) :
    find k (sortedEntries kvs) = (find k kvs).map sorted := by
  induction kvs with
  | nil => rfl
  | cons e kvs ih =>
    obtain ⟨hne, hkvs⟩ := List.nodup_cons.mp hkeys
    have hfresh : e.1 ∉ (sortedEntries kvs).map Prod.fst := by
      intro hmem
      have hfst := ((sortedEntries_perm kvs).map Prod.fst).mem_iff.mp hmem
      rw [List.map_map] at hfst
      exact hne hfst
    rw [sortedEntries_cons, @find_insertEntry (e.1, e.2.sorted) _ hfresh, find, find, ih hkvs]
    split
    · rfl
    · rfl

/-! ## Comparing what is read back -/

/-- An entry of the left mapping has its counterpart in the right one. -/
def matched (ys : List (String × Val)) (e : String × Val) : Bool :=
  match find e.1 ys with
  | some y => eq e.2 y
  | Option.none => false

theorem eqEntries_eq_all (xs ys : List (String × Val)) : eqEntries xs ys = xs.all (matched ys) := by
  induction xs with
  | nil => rfl
  | cons e xs ih =>
    rw [eqEntries, ih]
    rfl

mutual
/-- What is read back is as equal to anything as what was written. -/
theorem eq_sorted_left : (x y : Val) → eq x.sorted y = eq x y
  | .list xs, y => by
    cases y with
    | list ys => exact eqItems_sorted_left xs ys
    | _ => rfl
  | .dict kvs, y => by
    cases y with
    | dict ys =>
      have hlength : (sortedEntries kvs).length = kvs.length := by
        rw [(sortedEntries_perm kvs).length_eq, List.length_map]
      rw [sorted_dict, eq, eq, hlength, eqEntries_eq_all, eqEntries_eq_all,
        (sortedEntries_perm kvs).all_eq, all_sorted_left kvs ys]
    | _ => rfl
  | .none, _ | .bool _, _ | .int _, _ | .str _, _ | .other _ _ _, _ => rfl

theorem eqItems_sorted_left : (xs ys : List Val) →
    eqItems (canonicalItems (fun _ => false) xs) ys = eqItems xs ys
  | [], _ => rfl
  | x :: xs, ys => by
    cases ys with
    | nil => rfl
    | cons y ys =>
      rw [canonicalItems, eqItems, eqItems, eqItems_sorted_left xs ys]
      exact congrArg (· && _) (eq_sorted_left x y)

theorem all_sorted_left : (xs ys : List (String × Val)) →
    (xs.map fun e => (e.1, e.2.sorted)).all (matched ys) = xs.all (matched ys)
  | [], _ => rfl
  | (k, x) :: xs, ys => by
    rw [List.map_cons, List.all_cons, List.all_cons, all_sorted_left xs ys]
    unfold matched
    cases find k ys with
    | none => rfl
    | some y => exact congrArg (· && _) (eq_sorted_left x y)
end

/-! ## What can be written -/

mutual
/-- Nothing in the value is of a type that JSON does not have. -/
def writable : Val → Bool
  | .other _ _ _ => false
  | .list xs => writableItems xs
  | .dict kvs => writableEntries kvs
  | _ => true

def writableItems : List Val → Bool
  | [] => true
  | x :: xs => writable x && writableItems xs

def writableEntries : List (String × Val) → Bool
  | [] => true
  | (_, x) :: kvs => writable x && writableEntries kvs
end

theorem writableItems_eq_all (xs : List Val) : writableItems xs = xs.all writable := by
  induction xs with
  | nil => rfl
  | cons x xs ih => rw [writableItems, ih, List.all_cons]

theorem writableEntries_eq_all (kvs : List (String × Val)) :
    writableEntries kvs = kvs.all fun e => writable e.2 := by
  induction kvs with
  | nil => rfl
  | cons e kvs ih => rw [writableEntries, ih, List.all_cons]

mutual
/-- What can be written can be written again. -/
theorem writable_sorted : (x : Val) → x.sorted.writable = x.writable
  | .list xs => writable_sortedItems xs
  | .dict kvs => by
    rw [sorted_dict, writable, writable, writableEntries_eq_all, writableEntries_eq_all,
      (sortedEntries_perm kvs).all_eq, writable_sortedAll kvs]
  | .none | .bool _ | .int _ | .str _ | .other _ _ _ => rfl

theorem writable_sortedItems : (xs : List Val) →
    writableItems (canonicalItems (fun _ => false) xs) = writableItems xs
  | [] => rfl
  | x :: xs => by
    rw [canonicalItems, writableItems, writableItems, writable_sortedItems xs]
    exact congrArg (· && _) (writable_sorted x)

theorem writable_sortedAll : (kvs : List (String × Val)) →
    ((kvs.map fun e => (e.1, e.2.sorted)).all fun e => writable e.2) =
      kvs.all fun e => writable e.2
  | [] => rfl
  | (k, x) :: kvs => by
    rw [List.map_cons, List.all_cons, List.all_cons, writable_sortedAll kvs]
    exact congrArg (· && _) (writable_sorted x)
end

end Val

/-! ## Dictionaries -/

namespace Dict

variable {α : Type}

/-- The entries of a dictionary as they are read back. -/
def sortKeys (d : Dict String α) : Dict String α where
  entries := d.entries.insertionSort fun a b => TextLe a.1 b.1
  nodup := ((List.perm_insertionSort _ d.entries).map Prod.fst).nodup_iff.mpr d.nodup

theorem sortKeys_perm (d : Dict String α) : d.sortKeys.entries.Perm d.entries :=
  List.perm_insertionSort _ _

@[simp] theorem get?_sortKeys (d : Dict String α) (k : String) :
    d.sortKeys.get? k = d.get? k := by
  refine Option.ext fun v => ?_
  rw [← mem_entries, ← mem_entries, (sortKeys_perm d).mem_iff]

theorem keys_sortKeys (d : Dict String α) : d.sortKeys.keys = sortTexts d.keys := by
  unfold keys sortKeys sortTexts
  exact List.map_insertionSort _ _ Prod.fst d.entries fun _ _ _ _ => Iff.rfl

theorem length_sortKeys (d : Dict String α) : d.sortKeys.entries.length = d.entries.length :=
  (sortKeys_perm d).length_eq

theorem sortKeys_eq_self {d : Dict String α} (h : d.keys.Pairwise TextLe) : d.sortKeys = d := by
  refine ext_entries (List.Pairwise.insertionSort_eq ?_)
  unfold keys at h
  exact List.pairwise_map.mp h

/-- Once they are sorted, dictionaries with the same values are the same. -/
theorem sortKeys_eq_iff {d d' : Dict String α} :
    d.sortKeys = d'.sortKeys ↔ ∀ k, d.get? k = d'.get? k := by
  constructor
  · intro h k
    rw [← get?_sortKeys d, h, get?_sortKeys]
  · intro h
    refine ext_entries ?_
    have hperm : d.sortKeys.entries.Perm d'.sortKeys.entries := by
      refine (List.perm_ext_iff_of_nodup d.sortKeys.nodup.of_map d'.sortKeys.nodup.of_map).mpr ?_
      rintro ⟨k, v⟩
      rw [mem_entries, mem_entries, get?_sortKeys, get?_sortKeys, h k]
    have hsorted : ∀ d : Dict String α, d.sortKeys.entries.Pairwise fun a b => TextLe a.1 b.1 := by
      intro d
      have hkeys := List.pairwise_insertionSort TextLe d.keys
      change (sortTexts d.keys).Pairwise TextLe at hkeys
      rw [← keys_sortKeys] at hkeys
      exact List.pairwise_map.mp hkeys
    refine hperm.eq_of_pairwise (fun a b ha hb hab hba => ?_) (hsorted d) (hsorted d')
    exact List.inj_on_of_nodup_map d.sortKeys.nodup ha (hperm.mem_iff.mpr hb) (hab.antisymm hba)

theorem sortKeys_set (d : Dict String α) (k : String) (v : α) :
    (d.sortKeys.set k v).sortKeys = (d.set k v).sortKeys :=
  sortKeys_eq_iff.mpr fun k' => by rw [get?_set, get?_set, get?_sortKeys]

theorem sortKeys_mapValues {β : Type} (f : α → β) (d : Dict String α) :
    (d.sortKeys.mapValues f).sortKeys = (d.mapValues f).sortKeys :=
  sortKeys_eq_iff.mpr fun k' => by rw [get?_mapValues, get?_mapValues, get?_sortKeys]

end Dict
end Lib
end ZeroRuntime
