import Mathlib.Data.List.Perm.Basic
import Mathlib.Data.List.Nodup
import Mathlib.Data.Nat.Notation
import ZeroRuntime.Lib.Relations

/-!
# ZeroRuntime.Lib.Layers

Topological sorting layer by layer. A graph is a list of keys with what each of them waits for; a
layer is every key that waits for nothing, and taking it releases the others.

* `layers arrange n ws`: at most `n` layers, each put in order by `arrange`.
* `Ranked ws`: every key waits for keys of a smaller rank only.
* `layers_isSome_iff`: with a layer for every key, sorting succeeds exactly on ranked graphs.
* `ranked_iff`: no key is missing and none waits for itself, directly or through others.
* `layers_perm`, `layers_after`: what it answers is the keys in another order, each after those it
  waits for.
* `layers_congr`: the order in which the graph is written down makes no difference.
-/

namespace ZeroRuntime
namespace Lib
namespace Layers

variable {κ : Type}

abbrev Waits (κ : Type) := List (κ × List κ)

def keys (ws : Waits κ) : List κ := ws.map Prod.fst

def free (ws : Waits κ) : List κ := keys (ws.filter fun w => w.2.isEmpty)

def Ranked (ws : Waits κ) : Prop :=
  ∃ rank : κ → ℕ, ∀ w ∈ ws, ∀ d ∈ w.2, d ∈ keys ws ∧ rank d < rank w.1

variable {ws : Waits κ}

theorem mem_keys {k : κ} : k ∈ keys ws ↔ ∃ ds, (k, ds) ∈ ws := by
  simp [keys]

theorem mem_free {k : κ} : k ∈ free ws ↔ (k, []) ∈ ws := by
  simp [free, keys]

theorem free_sublist (ws : Waits κ) : (free ws).Sublist (keys ws) :=
  List.filter_sublist.map Prod.fst

variable {ws' : Waits κ}

theorem free_perm (h : ws.Perm ws') : (free ws).Perm (free ws') :=
  (h.filter _).map _

/-- Going down the ranks ends at a key that waits for nothing. -/
theorem exists_free (h : Ranked ws) (hne : ws ≠ []) : ∃ k, k ∈ free ws := by
  obtain ⟨rank, hrank⟩ := h
  have hdown : ∀ n, ∀ w ∈ ws, rank w.1 ≤ n → ∃ k, k ∈ free ws := by
    intro n
    induction n with
    | zero =>
      intro w hw hle
      by_cases hwaits : w.2 = []
      · exact ⟨w.1, mem_free.mpr (hwaits ▸ hw)⟩
      · obtain ⟨d, hd⟩ := List.exists_mem_of_ne_nil w.2 hwaits
        have hlt := (hrank w hw d hd).2
        omega
    | succ n ih =>
      intro w hw hle
      by_cases hwaits : w.2 = []
      · exact ⟨w.1, mem_free.mpr (hwaits ▸ hw)⟩
      · obtain ⟨d, hd⟩ := List.exists_mem_of_ne_nil w.2 hwaits
        obtain ⟨hkey, hlt⟩ := hrank w hw d hd
        obtain ⟨ds, hds⟩ := mem_keys.mp hkey
        have hlow : rank d ≤ n := by omega
        exact ih (d, ds) hds hlow
  obtain ⟨w, hw⟩ := List.exists_mem_of_ne_nil ws hne
  exact hdown (rank w.1) w hw (Nat.le_refl _)

variable {arrange : List κ → List κ}

theorem arrange_ne_nil (harrange : ∀ ks, (arrange ks).Perm ks) {ks : List κ} {k : κ} (h : k ∈ ks) :
    arrange ks ≠ [] := by
  intro hnil
  have hperm := harrange ks
  rw [hnil] at hperm
  rw [← hperm.nil_eq] at h
  cases h

variable {done : List κ}

/-- A layer is made of keys of the graph that wait for nothing. -/
theorem layer_free (harrange : ∀ ks, (arrange ks).Perm ks) (hlayer : arrange (free ws) = done) :
    (∀ k ∈ done, k ∈ keys ws) ∧ ∀ k ∈ done, (k, []) ∈ ws := by
  have hmem : ∀ k ∈ done, k ∈ free ws := fun k hk =>
    (harrange (free ws)).mem_iff.mp (hlayer ▸ hk)
  exact ⟨fun k hk => (free_sublist ws).mem (hmem k hk), fun k hk => mem_free.mp (hmem k hk)⟩

/-! ## Ranks and cycles -/

def WaitsFor (ws : Waits κ) (a b : κ) : Prop := ∃ ds, (a, ds) ∈ ws ∧ b ∈ ds

/-- There are ranks if and only if nothing is missing and nothing waits for itself. -/
theorem ranked_iff :
    Ranked ws ↔ (∀ w ∈ ws, ∀ d ∈ w.2, d ∈ keys ws) ∧ Relations.Acyclic (WaitsFor ws) := by
  constructor
  · rintro ⟨rank, hrank⟩
    have hdown : ∀ a b, WaitsFor ws a b → rank b < rank a := by
      rintro a b ⟨ds, hds, hb⟩
      exact (hrank (a, ds) hds b hb).2
    exact ⟨fun w hw d hd => (hrank w hw d hd).1, Relations.acyclic_of_rank hdown⟩
  · rintro ⟨hkeys, hacyclic⟩
    have hks : ∀ a b, WaitsFor ws a b → b ∈ keys ws := by
      rintro a b ⟨ds, hds, hb⟩
      exact hkeys (a, ds) hds b hb
    obtain ⟨rank, hrank⟩ := Relations.exists_rank hks hacyclic
    exact ⟨rank, fun w hw d hd => ⟨hkeys w hw d hd, hrank w.1 d ⟨w.2, hw, hd⟩⟩⟩

/-! ## Layers -/

variable [DecidableEq κ]

/-- What is left to sort once the keys of `done` are taken. -/
def release (done : List κ) (ws : Waits κ) : Waits κ :=
  (ws.filter fun w => w.1 ∉ done).map fun w => (w.1, w.2.filter fun d => d ∉ done)

def layers (arrange : List κ → List κ) : ℕ → Waits κ → Option (List κ)
  | _, [] => some []
  | 0, _ :: _ => none
  | n + 1, w :: ws =>
    match arrange (free (w :: ws)) with
    | [] => none
    | k :: ks => (layers arrange n (release (k :: ks) (w :: ws))).map fun rest => k :: ks ++ rest

/-! ## Taking a layer -/

theorem mem_release {w : κ × List κ} :
    w ∈ release done ws ↔
      ∃ ds, (w.1, ds) ∈ ws ∧ w.1 ∉ done ∧ w.2 = ds.filter fun d => d ∉ done := by
  unfold release
  rw [List.mem_map]
  constructor
  · rintro ⟨e, he, rfl⟩
    rw [List.mem_filter] at he
    exact ⟨e.2, he.1, by simpa using he.2, rfl⟩
  · rintro ⟨ds, hds, hdone, hw⟩
    refine ⟨(w.1, ds), List.mem_filter.mpr ⟨hds, by simpa using hdone⟩, ?_⟩
    rw [← hw]

theorem keys_release (done : List κ) (ws : Waits κ) :
    keys (release done ws) = (keys ws).filter fun k => k ∉ done := by
  unfold keys release
  rw [List.map_map, List.filter_map]
  rfl

theorem nodup_release (h : (keys ws).Nodup) : (keys (release done ws)).Nodup := by
  rw [keys_release]
  exact h.filter _

theorem ranked_release (done : List κ) (h : Ranked ws) : Ranked (release done ws) := by
  obtain ⟨rank, hrank⟩ := h
  refine ⟨rank, fun w hw d hd => ?_⟩
  obtain ⟨ds, hds, -, hw⟩ := mem_release.mp hw
  rw [hw, List.mem_filter] at hd
  obtain ⟨hmem, hlt⟩ := hrank _ hds d hd.1
  rw [keys_release, List.mem_filter]
  exact ⟨⟨hmem, hd.2⟩, hlt⟩

/-- Ranks for what is left are ranks for the whole, with the layer taken below them. -/
theorem ranked_of_release (hdone : ∀ k ∈ done, k ∈ keys ws)
    (hfree : ∀ w ∈ ws, w.1 ∈ done → w.2 = []) (h : Ranked (release done ws)) : Ranked ws := by
  obtain ⟨rank, hrank⟩ := h
  refine ⟨fun k => if k ∈ done then 0 else rank k + 1, fun w hw d hd => ?_⟩
  by_cases hw' : w.1 ∈ done
  · rw [hfree w hw hw'] at hd
    cases hd
  · by_cases hd' : d ∈ done
    · simp only [if_pos hd', if_neg hw']
      exact ⟨hdone d hd', Nat.succ_pos _⟩
    · have hmem : (w.1, w.2.filter fun d => d ∉ done) ∈ release done ws :=
        mem_release.mpr ⟨w.2, hw, hw', rfl⟩
      obtain ⟨hkey, hlt⟩ := hrank _ hmem d (List.mem_filter.mpr ⟨hd, by simpa using hd'⟩)
      rw [keys_release, List.mem_filter] at hkey
      simp only [if_neg hd', if_neg hw']
      exact ⟨hkey.1, Nat.succ_lt_succ hlt⟩

/-! ## Sorting -/

section Arrange

variable {arrange : List κ → List κ} (harrange : ∀ ks, (arrange ks).Perm ks)

variable {ws : Waits κ}

/-- The keys that are left when a layer is taken. -/
theorem length_release_lt {done : List κ} {k : κ} (hk : k ∈ done) (hkey : k ∈ keys ws) :
    (release done ws).length < ws.length := by
  have hlen : (release done ws).length = ((keys ws).filter fun k => k ∉ done).length := by
    rw [← keys_release]
    exact (List.length_map _).symm
  have hkeys : (keys ws).length = ws.length := List.length_map _
  rw [hlen, ← hkeys]
  exact List.length_filter_lt_length_iff_exists.mpr ⟨k, hkey, by simpa using hk⟩

include harrange in
theorem layers_isSome_iff {n : ℕ} (hn : ws.length ≤ n) (hnodup : (keys ws).Nodup) :
    (layers arrange n ws).isSome ↔ Ranked ws := by
  induction n generalizing ws with
  | zero =>
    rw [List.length_eq_zero_iff.mp (Nat.le_zero.mp hn)]
    simp [layers, Ranked]
  | succ n ih =>
    cases ws with
    | nil => simp [layers, Ranked]
    | cons w ws =>
      rw [layers]
      cases hlayer : arrange (free (w :: ws)) with
      | nil =>
        refine ⟨fun h => absurd h (by simp), fun h => ?_⟩
        obtain ⟨k, hk⟩ := exists_free h (List.cons_ne_nil w ws)
        exact absurd hlayer (arrange_ne_nil harrange hk)
      | cons k ks =>
        obtain ⟨hkeys, hfree⟩ := layer_free harrange hlayer
        have hlt : (release (k :: ks) (w :: ws)).length < (w :: ws).length :=
          length_release_lt List.mem_cons_self (hkeys k List.mem_cons_self)
        have hle : (release (k :: ks) (w :: ws)).length ≤ n := by omega
        rw [Option.isSome_map, ih hle (nodup_release hnodup)]
        refine ⟨ranked_of_release hkeys fun v hv hdone => ?_, ranked_release _⟩
        have hempty := hfree v.1 hdone
        have hinj := List.inj_on_of_nodup_map hnodup hv hempty rfl
        rw [hinj]

include harrange in
theorem layers_perm {n : ℕ} (hnodup : (keys ws).Nodup) {order : List κ}
    (h : layers arrange n ws = some order) : order.Perm (keys ws) := by
  induction n generalizing ws order with
  | zero =>
    cases ws with
    | nil => cases h; exact .nil
    | cons w ws => cases h
  | succ n ih =>
    cases ws with
    | nil => cases h; exact .nil
    | cons w ws =>
      rw [layers] at h
      cases hlayer : arrange (free (w :: ws)) with
      | nil =>
        rw [hlayer] at h
        cases h
      | cons k ks =>
        rw [hlayer] at h
        obtain ⟨rest, hrest, rfl⟩ := Option.map_eq_some_iff.mp h
        have hperm := ih (nodup_release hnodup) hrest
        rw [keys_release] at hperm
        obtain ⟨hkeys, -⟩ := layer_free harrange hlayer
        have hlayerPerm : (k :: ks).Perm (free (w :: ws)) := hlayer ▸ harrange _
        have hdone : ((keys (w :: ws)).filter fun x => x ∈ k :: ks).Perm (k :: ks) := by
          refine (List.perm_ext_iff_of_nodup (hnodup.filter _) ?_).mpr fun x => ?_
          · exact hlayerPerm.nodup_iff.mpr (hnodup.sublist (free_sublist _))
          · rw [List.mem_filter]
            exact ⟨fun hx => by simpa using hx.2, fun hx => ⟨hkeys x hx, by simpa using hx⟩⟩
        refine ((hdone.symm.append hperm).trans ?_)
        have hsplit := List.filter_append_perm (fun x => decide (x ∈ k :: ks)) (keys (w :: ws))
        simpa using hsplit

include harrange in
/-- What a key waits for is taken before it. -/
theorem layers_after {n : ℕ} (hnodup : (keys ws).Nodup) {order : List κ}
    (h : layers arrange n ws = some order) {k d : κ} (hwaits : WaitsFor ws k d) :
    order.idxOf d < order.idxOf k := by
  induction n generalizing ws order with
  | zero =>
    obtain ⟨ds, hds, -⟩ := hwaits
    cases ws with
    | nil => cases hds
    | cons w ws => cases h
  | succ n ih =>
    obtain ⟨ds, hds, hd⟩ := hwaits
    cases ws with
    | nil => cases hds
    | cons w ws =>
      rw [layers] at h
      cases hlayer : arrange (free (w :: ws)) with
      | nil =>
        rw [hlayer] at h
        cases h
      | cons x xs =>
        rw [hlayer] at h
        obtain ⟨rest, hrest, rfl⟩ := Option.map_eq_some_iff.mp h
        obtain ⟨-, hfree⟩ := layer_free harrange hlayer
        have hk : k ∉ x :: xs := by
          intro hk
          have hinj := List.inj_on_of_nodup_map hnodup hds (hfree k hk) rfl
          cases hinj
          cases hd
        rw [List.idxOf_append_of_notMem hk]
        by_cases hdone : d ∈ x :: xs
        · rw [List.idxOf_append_of_mem hdone]
          have hlt := List.idxOf_lt_length_of_mem hdone
          omega
        · rw [List.idxOf_append_of_notMem hdone]
          have hleft : WaitsFor (release (x :: xs) (w :: ws)) k d :=
            ⟨_, mem_release.mpr ⟨ds, hds, hk, rfl⟩,
              List.mem_filter.mpr ⟨hd, decide_eq_true hdone⟩⟩
          have hlt := ih (nodup_release hnodup) hrest hleft
          omega

end Arrange

theorem release_perm (done : List κ) (h : ws.Perm ws') :
    (release done ws).Perm (release done ws') := (h.filter _).map _

/-- Where the order inside a layer does not depend on how its keys come, neither does the whole. -/
theorem layers_congr (harrange : ∀ ks ks' : List κ, ks.Perm ks' → arrange ks = arrange ks') {n : ℕ}
    (h : ws.Perm ws') : layers arrange n ws = layers arrange n ws' := by
  induction n generalizing ws ws' with
  | zero =>
    cases ws with
    | nil => rw [h.nil_eq]
    | cons w ws =>
      cases ws' with
      | nil => exact absurd h.eq_nil (List.cons_ne_nil w ws)
      | cons w' ws' => rfl
  | succ n ih =>
    cases ws with
    | nil => rw [h.nil_eq]
    | cons w ws =>
      cases ws' with
      | nil => exact absurd h.eq_nil (List.cons_ne_nil w ws)
      | cons w' ws' =>
        rw [layers, layers, harrange _ _ (free_perm h)]
        cases arrange (free (w' :: ws')) with
        | nil => rfl
        | cons k ks =>
          dsimp only
          rw [ih (release_perm (k :: ks) h)]

end Layers
end Lib
end ZeroRuntime
