import Mathlib.Data.List.Sort
import ZeroRuntime.Lib.Value
import ZeroRuntime.Lib.Merge

/-!
# ZeroRuntime.Journal.Projection

The bounded form of a payload (`project_journal_restore_payload` of
`core/runtime/runtime_journal.py`): at most 32 entries or items at each level, five levels deep,
and a marker wherever something was left out.

* `clipEntries`: a mapping keeps the entries with the 32 first keys, in the order of their rank and
  text, and gets the marker as one more key when there were more.
* `project_project_iff`: the projection of a value is its own projection exactly when the value
  `Settles`: every mapping that is cut either has the marker among the keys it keeps, or keeps only
  keys that come before it.
* `project_settles`: projecting twice always settles.

A payload is JSON data: `other` stands for a number that is no integer.
-/

namespace ZeroRuntime
namespace Journal

open Lib

abbrev Entries := List (String × Val)

/-- `JOURNAL_RESTORE_TRUNCATION_MARKER` -/
def truncationMarker : String := "__truncated_for_journal_restore__"

def markerValue : Val := .str truncationMarker

/-- `_JOURNAL_RESTORE_MAX_ITEMS` -/
def maxItems : ℕ := 32

/-- `_JOURNAL_RESTORE_MAX_DEPTH` -/
def maxDepth : ℕ := 5

/-- `_JOURNAL_RESTORE_ESSENTIAL_KEYS` -/
def essentialKeys : List String :=
  ["abi_version", "applied", "boundary", "checkpoint_id", "checkpoint_type", "commit_allowed",
    "commit_applied", "commit_recorded", "decision_id", "event_id", "event_type", "execution_id",
    "failed", "from_state", "integrity_hash", "mutation_id", "mutation_request_id", "ok", "outcome",
    "phase", "reason", "record_id", "record_type", "relative_path", "rolled_back",
    "rollback_completed", "rollback_required", "runtime_version", "sequence", "session_id", "state",
    "status", "timestamp", "to_state", "transaction_id", "validation_passed", "verified"]

def endsWith (s suffix : String) : Bool :=
  Text.isPrefix suffix.toList.reverse s.toList.reverse

/-- The first part of `_journal_key_rank`. -/
def keyRank (k : String) : ℕ :=
  if essentialKeys.contains k || endsWith k "_id" || endsWith k "_status" then 0 else 1

/-- `_journal_key_rank(a) <= _journal_key_rank(b)` -/
def KeyLe (a b : String) : Prop :=
  keyRank a < keyRank b ∨ keyRank a = keyRank b ∧ TextLe a b

instance : DecidableRel KeyLe := fun a b =>
  inferInstanceAs (Decidable (keyRank a < keyRank b ∨ keyRank a = keyRank b ∧ TextLe a b))

/-- The order of the entries of a mapping. -/
def EntryLe (e e' : String × Val) : Prop := KeyLe e.1 e'.1

instance : DecidableRel EntryLe := fun e e' => inferInstanceAs (Decidable (KeyLe e.1 e'.1))

def sortEntries (kvs : Entries) : Entries := kvs.insertionSort EntryLe

/-- The entries a mapping keeps. -/
def keptEntries (kvs : Entries) : Entries := (sortEntries kvs).take maxItems

def clipEntries (kvs : Entries) : Entries :=
  if maxItems < kvs.length then Val.put truncationMarker markerValue (keptEntries kvs)
  else keptEntries kvs

def clipItems (xs : List Val) : List Val :=
  if maxItems < xs.length then xs.take maxItems ++ [markerValue] else xs.take maxItems

/-- `project(item, max_depth - depth)` -/
def project : ℕ → Val → Val
  | 0, .dict _ => markerValue
  | 0, .list _ => markerValue
  | d + 1, .dict kvs => .dict (clipEntries (kvs.map fun e => (e.1, project d e.2)))
  | d + 1, .list xs => .list (clipItems (xs.map (project d)))
  | _, x => x

def projectJournalRestorePayload (x : Val) : Val := project maxDepth x

def projectMapping (kvs : Entries) : Entries := (projectJournalRestorePayload (.dict kvs)).entries

/-! ## JSON data -/

/-- No mapping has a key twice. -/
inductive WellFormed : Val → Prop where
  | none : WellFormed .none
  | bool (b : Bool) : WellFormed (.bool b)
  | int (n : ℤ) : WellFormed (.int n)
  | str (s : String) : WellFormed (.str s)
  | other (t : String) (b h : Bool) : WellFormed (.other t b h)
  | list (xs : List Val) (h : ∀ x ∈ xs, WellFormed x) : WellFormed (.list xs)
  | dict (kvs : Entries) (hkeys : (kvs.map Prod.fst).Nodup) (h : ∀ e ∈ kvs, WellFormed e.2) :
      WellFormed (.dict kvs)

/-! ## The order of keys -/

theorem KeyLe.total (a b : String) : KeyLe a b ∨ KeyLe b a := by
  unfold KeyLe
  rcases Nat.lt_trichotomy (keyRank a) (keyRank b) with h | h | h
  · exact .inl (.inl h)
  · rcases TextLe.total a b with hle | hle
    · exact .inl (.inr ⟨h, hle⟩)
    · exact .inr (.inr ⟨h.symm, hle⟩)
  · exact .inr (.inl h)

theorem KeyLe.trans {a b c : String} (h : KeyLe a b) (h' : KeyLe b c) : KeyLe a c := by
  unfold KeyLe at *
  rcases h with h | ⟨h, hle⟩
  · rcases h' with h' | ⟨h', -⟩
    · exact .inl (Nat.lt_trans h h')
    · exact .inl (h' ▸ h)
  · rcases h' with h' | ⟨h', hle'⟩
    · exact .inl (h ▸ h')
    · exact .inr ⟨h.trans h', hle.trans hle'⟩

theorem KeyLe.refl (a : String) : KeyLe a a := by
  rcases KeyLe.total a a with h | h <;> exact h

instance : Std.Total EntryLe := ⟨fun e e' => KeyLe.total e.1 e'.1⟩

instance : IsTrans (String × Val) EntryLe := ⟨fun _ _ _ h h' => KeyLe.trans h h'⟩

/-! ## Sorting and keeping -/

section Clip

variable {kvs : Entries} {p : Val → Val}

/-- The entries with their values changed. -/
def onValues (p : Val → Val) (kvs : Entries) : Entries := kvs.map fun e => (e.1, p e.2)

theorem onValues_keys : (onValues p kvs).map Prod.fst = kvs.map Prod.fst := by
  simp [onValues]

theorem length_sortEntries : (sortEntries kvs).length = kvs.length :=
  List.length_insertionSort EntryLe kvs

theorem sortEntries_perm : (sortEntries kvs).Perm kvs := List.perm_insertionSort EntryLe kvs

theorem sorted_sortEntries : (sortEntries kvs).Pairwise EntryLe :=
  List.pairwise_insertionSort EntryLe kvs

theorem sortEntries_of_sorted (h : kvs.Pairwise EntryLe) : sortEntries kvs = kvs :=
  h.insertionSort_eq

theorem sorted_keptEntries : (keptEntries kvs).Pairwise EntryLe :=
  sorted_sortEntries.sublist (List.take_sublist _ _)

theorem mem_of_mem_keptEntries {e : String × Val} (h : e ∈ keptEntries kvs) : e ∈ kvs :=
  sortEntries_perm.mem_iff.mp (List.mem_of_mem_take h)

theorem length_keptEntries : (keptEntries kvs).length = min maxItems kvs.length := by
  unfold keptEntries
  rw [List.length_take, length_sortEntries]

theorem nodup_keptEntries (h : (kvs.map Prod.fst).Nodup) :
    ((keptEntries kvs).map Prod.fst).Nodup := by
  have hsorted : ((sortEntries kvs).map Prod.fst).Nodup :=
    (sortEntries_perm.map Prod.fst).nodup_iff.mpr h
  exact hsorted.sublist ((List.take_sublist _ _).map Prod.fst)

theorem keptEntries_onValues : keptEntries (onValues p kvs) = onValues p (keptEntries kvs) := by
  have hsort : sortEntries (onValues p kvs) = onValues p (sortEntries kvs) :=
    (List.map_insertionSort EntryLe EntryLe (fun e : String × Val => (e.1, p e.2)) kvs
      fun _ _ _ _ => Iff.rfl).symm
  unfold keptEntries
  rw [hsort]
  exact List.map_take.symm

theorem put_onValues (k : String) (v : Val) :
    Val.put k (p v) (onValues p kvs) = onValues p (Val.put k v kvs) := by
  induction kvs with
  | nil => rfl
  | cons e es ih =>
    obtain ⟨k', v'⟩ := e
    unfold onValues at *
    simp only [List.map_cons, Val.put]
    split
    · rfl
    · rw [List.map_cons, ih]

/-- Clipping looks at the keys only. -/
theorem clipEntries_onValues (hp : p markerValue = markerValue) :
    clipEntries (onValues p kvs) = onValues p (clipEntries kvs) := by
  have hlen : (onValues p kvs).length = kvs.length := List.length_map _
  unfold clipEntries
  rw [hlen, keptEntries_onValues]
  split
  · have hput : Val.put truncationMarker (p markerValue) (onValues p (keptEntries kvs)) =
        onValues p (Val.put truncationMarker markerValue (keptEntries kvs)) := put_onValues _ _
    rw [hp] at hput
    exact hput
  · rfl

theorem clipItems_map {xs : List Val} (hp : p markerValue = markerValue) :
    clipItems (xs.map p) = (clipItems xs).map p := by
  unfold clipItems
  rw [List.length_map]
  split
  · rw [List.map_append, List.map_take, List.map_singleton, hp]
  · rw [List.map_take]

end Clip

/-! ## Cutting twice -/

/-- A mapping that cutting leaves alone once it is cut. -/
def Fits (kvs : Entries) : Prop :=
  maxItems < kvs.length →
    truncationMarker ∈ (keptEntries kvs).map Prod.fst ∨
      ∀ e ∈ keptEntries kvs, KeyLe e.1 truncationMarker

instance (kvs : Entries) : Decidable (Fits kvs) :=
  inferInstanceAs (Decidable (_ → _))

variable {kvs : Entries}

theorem pairwise_of_keys {kvs' : Entries} (hkeys : kvs'.map Prod.fst = kvs.map Prod.fst)
    (h : kvs.Pairwise EntryLe) : kvs'.Pairwise EntryLe := by
  have hmap : (kvs.map Prod.fst).Pairwise KeyLe := List.pairwise_map.mpr h
  rw [← hkeys] at hmap
  exact (List.pairwise_map (R := KeyLe) (f := Prod.fst)).mp hmap

theorem keptEntries_of_le (hlen : kvs.length ≤ maxItems) (hsorted : kvs.Pairwise EntryLe) :
    keptEntries kvs = kvs := by
  unfold keptEntries
  rw [sortEntries_of_sorted hsorted, List.take_of_length_le hlen]

section Cut

variable {kvs : Entries}

/-- What is left when the marker was among the keys kept: 32 keys in order. -/
theorem clip_of_mem (h : truncationMarker ∈ (keptEntries kvs).map Prod.fst) :
    clipEntries (Val.put truncationMarker markerValue (keptEntries kvs)) =
      Val.put truncationMarker markerValue (keptEntries kvs) := by
  have hkeys := Val.keys_put_of_mem (v := markerValue) h
  have hlen : (Val.put truncationMarker markerValue (keptEntries kvs)).length ≤ maxItems := by
    rw [← List.length_map Prod.fst, hkeys, List.length_map, length_keptEntries]
    exact Nat.min_le_left _ _
  unfold clipEntries
  rw [if_neg (Nat.not_lt.mpr hlen),
    keptEntries_of_le hlen (pairwise_of_keys hkeys sorted_keptEntries)]

variable (hcut : maxItems < kvs.length)

include hcut in
theorem length_kept_of_cut : (keptEntries kvs).length = maxItems := by
  rw [length_keptEntries]
  exact Nat.min_eq_left (Nat.le_of_lt hcut)

include hcut in
theorem kept_of_last (hmax : ∀ e ∈ keptEntries kvs, KeyLe e.1 truncationMarker) :
    keptEntries (keptEntries kvs ++ [(truncationMarker, markerValue)]) = keptEntries kvs := by
  have hsorted : (keptEntries kvs ++ [(truncationMarker, markerValue)]).Pairwise EntryLe := by
    refine List.pairwise_append.mpr ⟨sorted_keptEntries, List.pairwise_singleton _ _, ?_⟩
    intro e he e' he'
    rw [List.mem_singleton] at he'
    subst he'
    exact hmax e he
  have hkept : keptEntries (keptEntries kvs ++ [(truncationMarker, markerValue)]) =
      (sortEntries (keptEntries kvs ++ [(truncationMarker, markerValue)])).take maxItems := rfl
  rw [hkept, sortEntries_of_sorted hsorted]
  exact List.take_left' (length_kept_of_cut hcut)

/-- One entry too many: the last one in order goes. -/
theorem sort_of_length_succ {kvs : Entries} (hlen : kvs.length = maxItems + 1) :
    ∃ last, sortEntries kvs = keptEntries kvs ++ [last] := by
  have hdrop : ((sortEntries kvs).drop maxItems).length = 1 := by
    rw [List.length_drop, length_sortEntries, hlen]
    omega
  obtain ⟨last, hone⟩ := List.length_eq_one_iff.mp hdrop
  refine ⟨last, ?_⟩
  unfold keptEntries
  rw [← hone, List.take_append_drop]

include hcut in
/-- With a key after the marker it is that key that a second cut drops. -/
theorem mem_kept_of_not_last (hmax : ¬∀ e ∈ keptEntries kvs, KeyLe e.1 truncationMarker) :
    truncationMarker ∈
      (keptEntries (keptEntries kvs ++ [(truncationMarker, markerValue)])).map Prod.fst := by
  push Not at hmax
  obtain ⟨e, he, hlt⟩ := hmax
  have hlen : (keptEntries kvs ++ [(truncationMarker, markerValue)]).length = maxItems + 1 := by
    rw [List.length_append, length_kept_of_cut hcut, List.length_singleton]
  have hperm := @sortEntries_perm (keptEntries kvs ++ [(truncationMarker, markerValue)])
  have hsorted := @sorted_sortEntries (keptEntries kvs ++ [(truncationMarker, markerValue)])
  obtain ⟨last, hlast⟩ := sort_of_length_succ hlen
  have hmem := hperm.mem_iff.mpr
    (List.mem_append_right (keptEntries kvs) (List.mem_singleton_self (truncationMarker, markerValue)))
  have he' := hperm.mem_iff.mpr (List.mem_append_left [(truncationMarker, markerValue)] he)
  rw [hlast] at hmem he' hsorted
  rcases List.mem_append.mp hmem with hmem | hmem
  · exact List.mem_map_of_mem hmem
  · exfalso
    rw [List.mem_singleton] at hmem
    rcases List.mem_append.mp he' with he' | he'
    · have hle := (List.pairwise_append.mp hsorted).2.2 e he' last (List.mem_singleton_self _)
      rw [← hmem] at hle
      exact hlt hle
    · rw [List.mem_singleton] at he'
      rw [he', ← hmem] at hlt
      exact hlt (KeyLe.refl _)

/-- Cutting twice is cutting once exactly when the mapping fits. -/
theorem clip_clip (h : Fits kvs) : clipEntries (clipEntries kvs) = clipEntries kvs := by
  by_cases hcut : maxItems < kvs.length
  · have hclip : clipEntries kvs = Val.put truncationMarker markerValue (keptEntries kvs) :=
      if_pos hcut
    by_cases hmem : truncationMarker ∈ (keptEntries kvs).map Prod.fst
    · rw [hclip, clip_of_mem hmem]
    · have hmax := (h hcut).resolve_left hmem
      rw [hclip, Val.put_of_not_mem hmem]
      unfold clipEntries
      rw [List.length_append, length_kept_of_cut hcut, if_pos (by simp),
        kept_of_last hcut hmax, Val.put_of_not_mem hmem]
  · have hclip : clipEntries kvs = keptEntries kvs := if_neg hcut
    have hlen : (keptEntries kvs).length ≤ maxItems := by
      rw [length_keptEntries]
      exact Nat.min_le_left _ _
    rw [hclip]
    unfold clipEntries
    rw [if_neg (Nat.not_lt.mpr hlen), keptEntries_of_le hlen sorted_keptEntries]

theorem length_clip_clip (h : ¬Fits kvs) :
    (clipEntries (clipEntries kvs)).length < (clipEntries kvs).length := by
  unfold Fits at h
  push Not at h
  obtain ⟨hcut, hmem, e, he, hlt⟩ := h
  have hclip : clipEntries kvs = keptEntries kvs ++ [(truncationMarker, markerValue)] := by
    unfold clipEntries
    rw [if_pos hcut, Val.put_of_not_mem hmem]
  have hlen : (clipEntries kvs).length = maxItems + 1 := by
    rw [hclip, List.length_append, length_kept_of_cut hcut, List.length_singleton]
  have hkept : (keptEntries (clipEntries kvs)).length = maxItems := by
    rw [length_keptEntries, hlen]
    exact Nat.min_eq_left (Nat.le_succ _)
  have hmem' := mem_kept_of_not_last hcut fun hmax => hlt (hmax e he)
  rw [← hclip] at hmem'
  have hsecond : (clipEntries (clipEntries kvs)).length = maxItems := by
    have hagain : clipEntries (clipEntries kvs) =
        Val.put truncationMarker markerValue (keptEntries (clipEntries kvs)) :=
      if_pos (by omega)
    rw [hagain, ← List.length_map Prod.fst, Val.keys_put_of_mem hmem', List.length_map, hkept]
  omega

/-- What was cut once fits. -/
theorem fits_clip : Fits (clipEntries kvs) := by
  intro hlong
  by_cases hcut : maxItems < kvs.length
  · have hclip : clipEntries kvs = Val.put truncationMarker markerValue (keptEntries kvs) :=
      if_pos hcut
    by_cases hmem : truncationMarker ∈ (keptEntries kvs).map Prod.fst
    · have hlen : (clipEntries kvs).length = maxItems := by
        rw [hclip, ← List.length_map Prod.fst, Val.keys_put_of_mem hmem, List.length_map,
          length_kept_of_cut hcut]
      omega
    · rw [hclip, Val.put_of_not_mem hmem]
      by_cases hmax : ∀ e ∈ keptEntries kvs, KeyLe e.1 truncationMarker
      · rw [kept_of_last hcut hmax]
        exact .inr hmax
      · exact .inl (mem_kept_of_not_last hcut hmax)
  · have hclip : clipEntries kvs = keptEntries kvs := if_neg hcut
    rw [hclip, length_keptEntries] at hlong
    omega

end Cut

/-! ## Projecting twice -/

theorem clip_items_twice (xs : List Val) :
    clipItems (clipItems xs) = clipItems xs := by
  by_cases hcut : maxItems < xs.length
  · have hclip : clipItems xs = xs.take maxItems ++ [markerValue] := if_pos hcut
    have hlen : (xs.take maxItems).length = maxItems := by
      rw [List.length_take]
      exact Nat.min_eq_left (Nat.le_of_lt hcut)
    rw [hclip]
    unfold clipItems
    rw [List.length_append, hlen, if_pos (by simp), List.take_left' hlen]
  · have hclip : clipItems xs = xs := by
      unfold clipItems
      rw [if_neg hcut, List.take_of_length_le (Nat.not_lt.mp hcut)]
    rw [hclip, hclip]

/-- Every mapping that the projection keeps, `d` levels deep, fits. -/
def Settles : ℕ → Val → Prop
  | d + 1, .dict kvs => Fits kvs ∧ ∀ e ∈ clipEntries kvs, Settles d e.2
  | d + 1, .list xs => ∀ x ∈ clipItems xs, Settles d x
  | _, _ => True

theorem project_marker (d : ℕ) : project d markerValue = markerValue := by
  cases d <;> rfl

theorem settles_marker (d : ℕ) : Settles d markerValue := by
  cases d <;> exact trivial

theorem project_dict (d : ℕ) (kvs : Entries) :
    project (d + 1) (.dict kvs) = .dict (onValues (project d) (clipEntries kvs)) := by
  rw [← clipEntries_onValues (project_marker d)]
  rfl

theorem project_list (d : ℕ) (xs : List Val) :
    project (d + 1) (.list xs) = .list ((clipItems xs).map (project d)) := by
  rw [← clipItems_map (project_marker d)]
  rfl

variable {p : Val → Val}

theorem fits_onValues : Fits (onValues p kvs) ↔ Fits kvs := by
  unfold Fits
  rw [keptEntries_onValues, onValues_keys]
  unfold onValues
  rw [List.length_map, List.forall_mem_map]

theorem mem_onValues {e : String × Val} (h : e ∈ onValues p kvs) :
    ∃ e' ∈ kvs, (e'.1, p e'.2) = e := List.mem_map.mp h

theorem onValues_onValues (p q : Val → Val) (kvs : Entries) :
    onValues p (onValues q kvs) = onValues (fun v => p (q v)) kvs := by
  unfold onValues
  rw [List.map_map]
  rfl

variable {q : Val → Val}

theorem onValues_congr (h : ∀ e ∈ kvs, p e.2 = q e.2) : onValues p kvs = onValues q kvs := by
  refine List.map_congr_left fun e he => ?_
  rw [h e he]

variable {v : Val}

theorem project_project {d : ℕ} (h : Settles d v) : project d (project d v) = project d v := by
  induction d generalizing v with
  | zero => cases v <;> rfl
  | succ d ih =>
    cases v with
    | dict kvs =>
      obtain ⟨hfits, hvals⟩ := h
      rw [project_dict, project_dict, clipEntries_onValues (project_marker d), clip_clip hfits,
        onValues_onValues, onValues_congr fun e he => ih (hvals e he)]
    | list xs =>
      have hmap : ((clipItems xs).map (project d)).map (project d) =
          (clipItems xs).map (project d) := by
        rw [List.map_map]
        exact List.map_congr_left fun x hx => ih (h x hx)
      rw [project_list, project_list, clipItems_map (project_marker d), clip_items_twice, hmap]
    | _ => rfl

theorem project_settles (d : ℕ) (v : Val) : Settles d (project d v) := by
  induction d generalizing v with
  | zero => cases v <;> exact trivial
  | succ d ih =>
    cases v with
    | dict kvs =>
      rw [project_dict]
      refine ⟨fits_onValues.mpr fits_clip, ?_⟩
      rw [clipEntries_onValues (project_marker d)]
      intro e he
      obtain ⟨e', -, rfl⟩ := mem_onValues he
      exact ih e'.2
    | list xs =>
      rw [project_list]
      intro x hx
      rw [clipItems_map (project_marker d)] at hx
      obtain ⟨y, -, rfl⟩ := List.mem_map.mp hx
      exact ih y
    | _ => exact trivial

/-! ## Equality of projections -/

theorem find_perm {kvs' : Entries} (h : kvs.Perm kvs') (hkeys : (kvs.map Prod.fst).Nodup)
    (k : String) : Val.find k kvs = Val.find k kvs' := by
  have hkeys' : (kvs'.map Prod.fst).Nodup := (h.map Prod.fst).nodup_iff.mp hkeys
  refine Option.ext fun v => ⟨fun hv => ?_, fun hv => ?_⟩
  · exact Val.find_of_mem hkeys' (h.mem_iff.mp (Val.mem_of_find hv))
  · exact Val.find_of_mem hkeys (h.mem_iff.mpr (Val.mem_of_find hv))

theorem eqEntries_iff {xs ys : Entries} :
    Val.eqEntries xs ys = true ↔
      ∀ e ∈ xs, ∃ y, Val.find e.1 ys = some y ∧ Val.eq e.2 y = true := by
  induction xs with
  | nil => simp [Val.eqEntries]
  | cons a xs ih =>
    obtain ⟨k, x⟩ := a
    rw [Val.eqEntries, Bool.and_eq_true, ih, List.forall_mem_cons]
    cases Val.find k ys with
    | none => simp
    | some y => simp

theorem eqItems_map {xs : List Val} :
    Val.eqItems (xs.map p) (xs.map q) = true ↔ ∀ x ∈ xs, Val.eq (p x) (q x) = true := by
  induction xs with
  | nil => simp [Val.eqItems]
  | cons x xs ih => rw [List.map_cons, List.map_cons, Val.eqItems, Bool.and_eq_true, ih,
      List.forall_mem_cons]

theorem eqEntries_onValues (hkeys : (kvs.map Prod.fst).Nodup) :
    Val.eqEntries (onValues p kvs) (onValues q kvs) = true ↔
      ∀ e ∈ kvs, Val.eq (p e.2) (q e.2) = true := by
  have hnodup : ((onValues q kvs).map Prod.fst).Nodup := by rwa [onValues_keys]
  have hfind : ∀ e ∈ kvs, Val.find e.1 (onValues q kvs) = some (q e.2) := fun e he =>
    Val.find_of_mem hnodup (List.mem_map_of_mem he : (e.1, q e.2) ∈ onValues q kvs)
  rw [eqEntries_iff]
  constructor
  · intro h e he
    obtain ⟨y, hy, heq⟩ := h (e.1, p e.2) (List.mem_map_of_mem he)
    rw [hfind e he, Option.some.injEq] at hy
    rwa [← hy] at heq
  · intro h e he
    obtain ⟨e', he', rfl⟩ := mem_onValues he
    exact ⟨q e'.2, hfind e' he', h e' he'⟩

theorem WellFormed.eq_refl (h : WellFormed v) : Val.eq v v = true := by
  induction h with
  | list xs _ ih =>
    rw [Val.eq]
    simpa using (eqItems_map (p := id) (q := id)).mpr ih
  | dict kvs hkeys _ ih =>
    rw [Val.eq, beq_self_eq_true, Bool.true_and]
    simpa [onValues] using (eqEntries_onValues (p := id) (q := id) hkeys).mpr ih
  | _ => simp [Val.eq]

theorem nodup_clipEntries (h : (kvs.map Prod.fst).Nodup) :
    ((clipEntries kvs).map Prod.fst).Nodup := by
  unfold clipEntries
  split
  · exact Val.nodup_put (nodup_keptEntries h)
  · exact nodup_keptEntries h

theorem mem_clipEntries {e : String × Val} (h : e ∈ clipEntries kvs) :
    e ∈ kvs ∨ e = (truncationMarker, markerValue) := by
  unfold clipEntries at h
  split at h
  · exact (Val.mem_put h).symm.imp_left mem_of_mem_keptEntries
  · exact .inl (mem_of_mem_keptEntries h)

theorem mem_clipItems {xs : List Val} {x : Val} (h : x ∈ clipItems xs) :
    x ∈ xs ∨ x = markerValue := by
  unfold clipItems at h
  split at h
  · exact (List.mem_append.mp h).imp List.mem_of_mem_take List.mem_singleton.mp
  · exact .inl (List.mem_of_mem_take h)

theorem WellFormed.project (h : WellFormed v) (d : ℕ) : WellFormed (project d v) := by
  have hmarker : WellFormed markerValue := .str _
  induction d generalizing v with
  | zero =>
    cases h with
    | list => exact hmarker
    | dict => exact hmarker
    | other t b h => exact .other t b h
    | none => exact .none
    | bool b => exact .bool b
    | int n => exact .int n
    | str s => exact .str s
  | succ d ih =>
    cases h with
    | list xs h =>
      rw [project_list]
      refine .list _ fun x hx => ?_
      obtain ⟨y, hy, rfl⟩ := List.mem_map.mp hx
      rcases mem_clipItems hy with hy | rfl
      · exact ih (h y hy)
      · exact ih hmarker
    | dict kvs hkeys h =>
      rw [project_dict]
      refine .dict _ (by rw [onValues_keys]; exact nodup_clipEntries hkeys) fun e he => ?_
      obtain ⟨e', he', rfl⟩ := mem_onValues he
      rcases mem_clipEntries he' with he' | rfl
      · exact ih (h e' he')
      · exact ih hmarker
    | other t b h => exact .other t b h
    | none => exact .none
    | bool b => exact .bool b
    | int n => exact .int n
    | str s => exact .str s

/-- A projection equal to its own projection is that of a value that settles. -/
theorem settles_of_eq {d : ℕ} (h : WellFormed v)
    (heq : Val.eq (project d (project d v)) (project d v) = true) : Settles d v := by
  induction d generalizing v with
  | zero => cases v <;> exact trivial
  | succ d ih =>
    cases h with
    | dict kvs hkeys h =>
      rw [project_dict, project_dict, clipEntries_onValues (project_marker d), Val.eq,
        Bool.and_eq_true, onValues_onValues, beq_iff_eq] at heq
      obtain ⟨hlen, heq⟩ := heq
      have hfits : Fits kvs := by
        by_contra hfits
        have := length_clip_clip hfits
        unfold onValues at hlen
        rw [List.length_map, List.length_map] at hlen
        omega
      rw [clip_clip hfits, eqEntries_onValues (nodup_clipEntries hkeys)] at heq
      refine ⟨hfits, fun e he => ?_⟩
      rcases mem_clipEntries he with hmem | rfl
      · exact ih (h e hmem) (heq e he)
      · exact settles_marker d
    | list xs h =>
      rw [project_list, project_list, clipItems_map (project_marker d), clip_items_twice,
        List.map_map, Val.eq, eqItems_map] at heq
      intro x hx
      rcases mem_clipItems hx with hmem | rfl
      · exact ih (h x hmem) (heq x hx)
      · exact settles_marker d
    | _ => exact trivial

/-- The projection is idempotent at the values that settle, and at no others. -/
theorem project_project_iff {d : ℕ} (h : WellFormed v) :
    Val.eq (project d (project d v)) (project d v) = true ↔ Settles d v := by
  refine ⟨settles_of_eq h, fun hs => ?_⟩
  rw [project_project hs]
  exact (h.project d).eq_refl

end Journal
end ZeroRuntime
