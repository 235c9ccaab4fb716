import Mathlib.Data.List.Chain
import Mathlib.Data.List.Perm.Subperm
import Mathlib.Data.List.Rotate
import Mathlib.Data.List.Sort
import ZeroRuntime.Lib.DepthFirst
import ZeroRuntime.Lib.Relations

/-!
# ZeroRuntime.Lib.Cycles

All simple cycles of a graph, found by walking every path from every node. A cycle is written down
closed, with its first node at its end again, and turned so that the least of its rotations is
shown; `le` is a total order of the lists of nodes.

* `visit` walks on from a node; a node that is on the path already closes a cycle.
* `SimpleCycle r body`: the nodes of `body` are different ones, and edges lead around.
* `visit_sound`, `visit_complete`: what is found are simple cycles, and every one of them is found.
* `canonicalCycle_eq_iff`: two cycles are shown alike exactly when one is a rotation of the other.
* `mem_findCycles`, `findCycles_congr`: the answer depends on the edges only.
* `findCycles_eq_nil_iff`: nothing is found exactly if no way leads back to where it starts.
-/

namespace ZeroRuntime
namespace Lib
namespace Cycles

open DepthFirst Relation

variable {α : Type}

/-! ## Rotations -/

section Rotation

variable (le : List α → List α → Prop) [DecidableRel le]

def rotations (body : List α) : List (List α) :=
  (List.range body.length).map fun index => body.drop index ++ body.take index

/-- `min(x, *xs)` -/
def least (x : List α) (xs : List (List α)) : List α :=
  xs.foldl (fun best y => if le best y then best else y) x

def leastRotation (body : List α) : List α :=
  match rotations body with
  | [] => []
  | r :: rs => least le r rs

/-- A cycle with its first node at its end again. -/
def close (body : List α) : List α := body ++ body.take 1

def canonicalCycle (cycle : List α) : List α :=
  if cycle.length ≤ 1 then cycle else close (leastRotation le cycle.dropLast)

variable {body : List α}

theorem mem_rotations {r : List α} (hne : body ≠ []) : r ∈ rotations body ↔ body ~r r := by
  unfold rotations
  rw [List.mem_map, List.isRotated_iff_mod]
  constructor
  · rintro ⟨n, hn, rfl⟩
    have hlt := List.mem_range.mp hn
    exact ⟨n, Nat.le_of_lt hlt, List.rotate_eq_drop_append_take (Nat.le_of_lt hlt)⟩
  · rintro ⟨n, hn, rfl⟩
    have hpos := List.length_pos_iff.mpr hne
    rcases Nat.lt_or_eq_of_le hn with hlt | rfl
    · exact ⟨n, List.mem_range.mpr hlt, (List.rotate_eq_drop_append_take hn).symm⟩
    · refine ⟨0, List.mem_range.mpr hpos, ?_⟩
      rw [List.rotate_length, List.drop_zero, List.take_zero, List.append_nil]

variable {le}

theorem least_mem (x : List α) (xs : List (List α)) : least le x xs ∈ x :: xs := by
  unfold least
  induction xs generalizing x with
  | nil => exact List.mem_cons_self
  | cons y ys ih =>
    rw [List.foldl_cons]
    split
    · rcases List.mem_cons.mp (ih x) with h | h
      · rw [h]
        exact List.mem_cons_self
      · exact List.mem_cons_of_mem _ (List.mem_cons_of_mem _ h)
    · exact List.mem_cons_of_mem _ (ih y)

theorem least_le [Std.Total le] [IsTrans _ le] (x : List α) (xs : List (List α)) :
    ∀ y ∈ x :: xs, le (least le x xs) y := by
  have hrefl : ∀ y, le y y := fun y => (Std.Total.total (r := le) y y).elim id id
  unfold least
  induction xs generalizing x with
  | nil =>
    intro y hy
    rw [List.mem_singleton.mp hy]
    exact hrefl x
  | cons z zs ih =>
    intro y hy
    rw [List.foldl_cons]
    split
    · rename_i hxz
      rcases List.mem_cons.mp hy with rfl | hy
      · exact ih _ _ List.mem_cons_self
      · rcases List.mem_cons.mp hy with rfl | hy
        · exact IsTrans.trans _ _ _ (ih x x List.mem_cons_self) hxz
        · exact ih x y (List.mem_cons_of_mem _ hy)
    · rename_i hxz
      rcases List.mem_cons.mp hy with rfl | hy
      · have hzy : le z y := (Std.Total.total (r := le) y z).resolve_left hxz
        exact IsTrans.trans _ _ _ (ih z z List.mem_cons_self) hzy
      · exact ih z y hy

variable (le)

theorem isRotated_leastRotation (body : List α) : body ~r leastRotation le body := by
  unfold leastRotation
  split
  · rename_i hnil
    have hempty : body = [] := by
      by_contra hne
      have hmem := (mem_rotations hne).mpr (List.IsRotated.refl body)
      rw [hnil] at hmem
      cases hmem
    rw [hempty]
  · rename_i r rs hrotations
    have hne : body ≠ [] := by
      rintro rfl
      cases hrotations
    refine (mem_rotations hne).mp ?_
    rw [hrotations]
    exact least_mem r rs

theorem leastRotation_le [Std.Total le] [IsTrans _ le] {r : List α} (h : body ~r r) :
    le (leastRotation le body) r := by
  by_cases hne : body = []
  · have hr : r = [] := List.isRotated_nil_iff.mp (hne ▸ h.symm)
    rw [hne, hr]
    exact (Std.Total.total (r := le) [] []).elim id id
  · have hmem := (mem_rotations hne).mpr h
    unfold leastRotation
    split
    · rename_i hnil
      rw [hnil] at hmem
      cases hmem
    · rename_i x xs hrotations
      rw [hrotations] at hmem
      exact least_le x xs r hmem

variable [Std.Total le] [IsTrans _ le] [Std.Antisymm le]

variable {body' : List α}

theorem leastRotation_eq_iff : leastRotation le body = leastRotation le body' ↔ body ~r body' := by
  have hbody := isRotated_leastRotation le body
  have hbody' := isRotated_leastRotation le body'
  constructor
  · intro heq
    exact hbody.trans (heq ▸ hbody'.symm)
  · intro h
    exact Std.Antisymm.antisymm _ _ (leastRotation_le le (h.trans hbody'))
      (leastRotation_le le (h.symm.trans hbody))

theorem close_inj (h : close body = close body') : body = body' := by
  cases body with
  | nil =>
    cases body' with
    | nil => rfl
    | cons b bs => cases h
  | cons a as =>
    cases body' with
    | nil => cases h
    | cons b bs => exact (List.append_inj' h rfl).1

omit [Std.Total le] [IsTrans _ le] [Std.Antisymm le] in
theorem canonicalCycle_close (hne : body ≠ []) :
    canonicalCycle le (close body) = close (leastRotation le body) := by
  unfold canonicalCycle
  cases body with
  | nil => exact absurd rfl hne
  | cons a as =>
    have hclose : close (a :: as) = (a :: as) ++ [a] := rfl
    rw [hclose, List.dropLast_concat, if_neg]
    rw [List.length_append, List.length_cons, List.length_singleton]
    omega

/-- Two cycles are shown alike exactly when one is a rotation of the other. -/
theorem canonicalCycle_eq_iff (hne : body ≠ []) (hne' : body' ≠ []) :
    canonicalCycle le (close body) = canonicalCycle le (close body') ↔ body ~r body' := by
  rw [canonicalCycle_close le hne, canonicalCycle_close le hne', ← leastRotation_eq_iff le]
  exact ⟨close_inj, congrArg close⟩

end Rotation

/-! ## Loops that come to their end -/

section Loops

variable {β σ : Type} {f : σ → β → Option σ} {bs : List β}

theorem foldlM_keeps {I : σ → Prop} (hstep : ∀ b ∈ bs, ∀ s s', f s b = some s' → I s → I s')
    {s s' : σ} (h : bs.foldlM f s = some s') (hs : I s) : I s' := by
  induction bs generalizing s with
  | nil =>
    cases h
    exact hs
  | cons b bs ih =>
    rw [List.foldlM_cons] at h
    obtain ⟨t, ht, hrest⟩ := Option.bind_eq_some_iff.mp h
    exact ih (fun c hc => hstep c (List.mem_cons_of_mem b hc)) hrest
      (hstep b List.mem_cons_self s t ht hs)

/-- The round of one element, and what the rounds after it keep. -/
theorem foldlM_round {I : σ → Prop} {s s' : σ} (h : bs.foldlM f s = some s') {b : β} (hb : b ∈ bs)
    (hround : ∀ t t', f t b = some t' → I t')
    (hstep : ∀ c t t', f t c = some t' → I t → I t') : I s' := by
  induction bs generalizing s with
  | nil => cases hb
  | cons c bs ih =>
    rw [List.foldlM_cons] at h
    obtain ⟨t, ht, hrest⟩ := Option.bind_eq_some_iff.mp h
    rcases List.mem_cons.mp hb with rfl | hb
    · exact foldlM_keeps (fun c _ => hstep c) hrest (hround s t ht)
    · exact ih hrest hb

theorem foldlM_isSome (hstep : ∀ b ∈ bs, ∀ s, (f s b).isSome) (s : σ) :
    (bs.foldlM f s).isSome := by
  induction bs generalizing s with
  | nil => rfl
  | cons b bs ih =>
    obtain ⟨t, ht⟩ := Option.isSome_iff_exists.mp (hstep b List.mem_cons_self s)
    rw [List.foldlM_cons, ht]
    exact ih (fun c hc => hstep c (List.mem_cons_of_mem b hc)) t

end Loops

/-! ## Walking -/

variable [DecidableEq α] (le : List α → List α → Prop) [DecidableRel le]

/-- `cycles.add(c)` -/
def add (c : List α) (cycles : List (List α)) : List (List α) :=
  if c ∈ cycles then cycles else c :: cycles

/-- Walks on from `node`, with the nodes of `path` behind. `fuel` bounds how much longer the path
may get. -/
def visit (g : Graph α) (fuel : ℕ) (path : List α) (cycles : List (List α)) (node : α) :
    Option (List (List α)) :=
  if node ∈ path then
    some (add (canonicalCycle le (path.dropWhile (fun a => a ≠ node) ++ [node])) cycles)
  else
    match fuel with
    | 0 => none
    | fuel + 1 => (next g node).foldlM (visit g fuel (path ++ [node])) cycles

/-- The cycles found from the nodes of `order`, each once and sorted. -/
def findCycles (g : Graph α) (order : List α) : Option (List (List α)) :=
  (order.foldlM (visit le g (nodes g).length []) []).map fun cycles => cycles.insertionSort le

/-- Different nodes with an edge from each to the next, and from the last to the first. -/
structure SimpleCycle (r : α → α → Prop) (body : List α) : Prop where
  nonempty : body ≠ []
  nodup : body.Nodup
  chain : (close body).IsChain r

variable {le} {g : Graph α}

variable {cycles : List (List α)}

theorem mem_add {c d : List α} : d ∈ add c cycles ↔ d = c ∨ d ∈ cycles := by
  unfold add
  split
  · rename_i hmem
    exact ⟨.inr, fun h => h.elim (fun heq => heq ▸ hmem) id⟩
  · exact List.mem_cons

theorem nodup_add {c : List α} (h : cycles.Nodup) : (add c cycles).Nodup := by
  unfold add
  split
  · exact h
  · rename_i hnew
    exact List.nodup_cons.mpr ⟨hnew, h⟩

variable {node : α}

/-- A path that is met again at one of its nodes is split there. -/
theorem dropWhile_split {before after : List α} (h : node ∉ before) :
    (before ++ node :: after).dropWhile (fun a => a ≠ node) = node :: after := by
  have hbefore : ∀ a ∈ before, decide (a ≠ node) = true := fun a ha =>
    decide_eq_true fun heq => h (heq ▸ ha)
  rw [List.dropWhile_append_of_pos hbefore, List.dropWhile_cons_of_neg (by simp)]

variable {fuel : ℕ} {path : List α} {cycles' : List (List α)}

theorem subset_of_visit (h : visit le g fuel path cycles node = some cycles') :
    cycles ⊆ cycles' := by
  induction fuel generalizing path cycles cycles' node with
  | zero =>
    unfold visit at h
    split_ifs at h
    cases h
    exact fun c hc => mem_add.mpr (.inr hc)
  | succ fuel ih =>
    unfold visit at h
    split_ifs at h
    · cases h
      exact fun c hc => mem_add.mpr (.inr hc)
    · have hstep : ∀ b ∈ next g node, ∀ found found',
          visit le g fuel (path ++ [node]) found b = some found' →
            cycles ⊆ found → cycles ⊆ found' :=
        fun _ _ _ _ hround hsub => List.Subset.trans hsub (ih hround)
      exact foldlM_keeps hstep h (List.Subset.refl _)

theorem nodup_of_visit (h : visit le g fuel path cycles node = some cycles') (hnodup : cycles.Nodup)
    : cycles'.Nodup := by
  induction fuel generalizing path cycles cycles' node with
  | zero =>
    unfold visit at h
    split_ifs at h
    cases h
    exact nodup_add hnodup
  | succ fuel ih =>
    unfold visit at h
    split_ifs at h
    · cases h
      exact nodup_add hnodup
    · exact foldlM_keeps (fun _ _ _ _ hround => ih hround) h hnodup

def Shown (le : List α → List α → Prop) [DecidableRel le] (g : Graph α) (c : List α) : Prop :=
  ∃ body, SimpleCycle (Edge g) body ∧ c = canonicalCycle le (close body)

theorem simpleCycle_of_path {before after : List α}
    (hchain : (before ++ node :: after ++ [node]).IsChain (Edge g))
    (hnodup : (before ++ node :: after).Nodup) : SimpleCycle (Edge g) (node :: after) where
  nonempty := List.cons_ne_nil _ _
  nodup := (List.nodup_append.mp hnodup).2.1
  chain := by
    rw [List.append_assoc] at hchain
    exact hchain.right_of_append

/-- A node that is met again closes a simple cycle. -/
theorem shown_of_met (hmem : node ∈ path) (hchain : (path ++ [node]).IsChain (Edge g))
    (hnodup : path.Nodup) (hcycles : ∀ c ∈ cycles, Shown le g c) :
    ∀ c ∈ add (canonicalCycle le (path.dropWhile (fun a => a ≠ node) ++ [node])) cycles,
      Shown le g c := by
  intro c hc
  rcases mem_add.mp hc with rfl | hc
  · obtain ⟨before, after, rfl, hbefore⟩ := List.eq_append_cons_of_mem hmem
    rw [dropWhile_split hbefore]
    exact ⟨node :: after, simpleCycle_of_path hchain hnodup, rfl⟩
  · exact hcycles c hc

theorem visit_sound (h : visit le g fuel path cycles node = some cycles')
    (hchain : (path ++ [node]).IsChain (Edge g)) (hnodup : path.Nodup)
    (hcycles : ∀ c ∈ cycles, Shown le g c) : ∀ c ∈ cycles', Shown le g c := by
  induction fuel generalizing path cycles cycles' node with
  | zero =>
    unfold visit at h
    split_ifs at h with hmem
    cases h
    exact shown_of_met hmem hchain hnodup hcycles
  | succ fuel ih =>
    unfold visit at h
    split_ifs at h with hmem
    · cases h
      exact shown_of_met hmem hchain hnodup hcycles
    · have hpath : (path ++ [node]).Nodup := List.nodup_append.mpr
        ⟨hnodup, List.nodup_singleton node, fun a ha b hb hab =>
          hmem (List.mem_singleton.mp hb ▸ hab ▸ ha)⟩
      refine foldlM_keeps (I := fun found => ∀ c ∈ found, Shown le g c)
        (fun b hb found found' hround hfound => ?_) h hcycles
      have hnext : (path ++ [node] ++ [b]).IsChain (Edge g) := by
        refine hchain.append (List.isChain_singleton b) ?_
        intro x hx y hy
        rw [List.getLast?_concat, Option.mem_some_iff] at hx
        rw [List.head?_cons, Option.mem_some_iff] at hy
        rw [← hx, ← hy]
        exact hb
      exact ih hround hnext hpath hfound

variable {rest : List α}

/-- Walking along a path whose last node leads back to one of its nodes finds that cycle. -/
theorem visit_complete {v : α} (h : visit le g fuel path cycles node = some cycles')
    (hnodup : (path ++ node :: rest).Nodup) (hchain : (node :: rest ++ [v]).IsChain (Edge g))
    (hv : v ∈ path ++ node :: rest) :
    canonicalCycle le ((path ++ node :: rest).dropWhile (fun a => a ≠ v) ++ [v]) ∈ cycles' := by
  have hnot : node ∉ path := fun hmem =>
    (List.nodup_append.mp hnodup).2.2 node hmem node List.mem_cons_self rfl
  induction rest generalizing fuel path cycles cycles' node with
  | nil =>
    cases fuel with
    | zero =>
      unfold visit at h
      rw [if_neg hnot] at h
      cases h
    | succ fuel =>
      unfold visit at h
      rw [if_neg hnot] at h
      have hedge : v ∈ next g node := (List.isChain_cons_cons.mp hchain).1
      refine foldlM_round (I := (_ ∈ ·)) h hedge (fun found found' hround => ?_)
        fun b found found' hround hmem => subset_of_visit hround hmem
      have hmet : v ∈ path ++ [node] := hv
      unfold visit at hround
      rw [if_pos hmet] at hround
      cases hround
      exact mem_add.mpr (.inl rfl)
  | cons b rest ih =>
    cases fuel with
    | zero =>
      unfold visit at h
      rw [if_neg hnot] at h
      cases h
    | succ fuel =>
      unfold visit at h
      rw [if_neg hnot] at h
      obtain ⟨hedge, hrest⟩ := List.isChain_cons_cons.mp hchain
      refine foldlM_round (I := (_ ∈ ·)) h hedge (fun found found' hround => ?_)
        fun b found found' hround hmem => subset_of_visit hround hmem
      have hsplit : path ++ node :: b :: rest = path ++ [node] ++ b :: rest := by
        rw [List.append_assoc]
        rfl
      rw [hsplit] at hnodup hv ⊢
      exact ih hround hnodup hrest hv fun hmem =>
        (List.nodup_append.mp hnodup).2.2 b hmem b List.mem_cons_self rfl

/-- A path has no more nodes than there are, so the walk comes to its end. -/
theorem visit_isSome (hpath : path.Nodup) (hsub : path ⊆ nodes g) (hnode : node ∈ nodes g)
    (hfuel : (nodes g).length ≤ fuel + path.length) :
    (visit le g fuel path cycles node).isSome := by
  induction fuel generalizing path cycles node with
  | zero =>
    unfold visit
    by_cases hmem : node ∈ path
    · rw [if_pos hmem]
      rfl
    · have hle : (node :: path).length ≤ (nodes g).length :=
        (List.subperm_of_subset (List.nodup_cons.mpr ⟨hmem, hpath⟩)
          (List.cons_subset.mpr ⟨hnode, hsub⟩)).length_le
      rw [List.length_cons] at hle
      omega
  | succ fuel ih =>
    unfold visit
    by_cases hmem : node ∈ path
    · rw [if_pos hmem]
      rfl
    · rw [if_neg hmem]
      refine foldlM_isSome (fun b hb found => ih ?_ ?_ ?_ ?_) cycles
      · exact List.nodup_append.mpr ⟨hpath, List.nodup_singleton node, fun a ha b hb hab =>
          hmem (List.mem_singleton.mp hb ▸ hab ▸ ha)⟩
      · exact List.append_subset.mpr ⟨hsub, List.cons_subset.mpr ⟨hnode, List.nil_subset _⟩⟩
      · exact of_decide_eq_true (List.mem_filter.mp hb).2
      · rw [List.length_append, List.length_singleton]
        omega

/-! ## All cycles -/

variable {order : List α}

theorem findCycles_isSome (horder : order ⊆ nodes g) :
    ∃ cycles, findCycles le g order = some cycles := by
  unfold findCycles
  rw [← Option.isSome_iff_exists, Option.isSome_map]
  refine foldlM_isSome (fun node hnode found => visit_isSome List.nodup_nil ?_ ?_ ?_) []
  · exact List.nil_subset _
  · exact horder hnode
  · exact Nat.le_refl _

theorem mem_findCycles (horder : nodes g ⊆ order) (h : findCycles le g order = some cycles)
    {c : List α} : c ∈ cycles ↔ Shown le g c := by
  unfold findCycles at h
  obtain ⟨found, hfound, rfl⟩ := Option.map_eq_some_iff.mp h
  rw [(List.perm_insertionSort le found).mem_iff]
  constructor
  · have hsound : ∀ c ∈ found, Shown le g c :=
      foldlM_keeps (fun node _ _ _ hround hshown =>
        visit_sound hround (List.isChain_singleton node) List.nodup_nil hshown) hfound
        fun c hc => absurd hc List.not_mem_nil
    exact hsound c
  · rintro ⟨body, hbody, rfl⟩
    cases body with
    | nil => exact absurd rfl hbody.nonempty
    | cons a rest =>
      have hchain : (a :: rest ++ [a]).IsChain (Edge g) := hbody.chain
      have hedge : a ∈ nodes g := by
        cases rest with
        | nil => exact mem_nodes_of_edge (List.isChain_cons_cons.mp hchain).1
        | cons b rest => exact mem_nodes_of_edge (List.isChain_cons_cons.mp hchain).1
      refine foldlM_round (I := (_ ∈ ·)) hfound (horder hedge) (fun t t' hround => ?_)
        fun b t t' hround hmem => subset_of_visit hround hmem
      have hmem := visit_complete hround hbody.nodup hchain List.mem_cons_self
      rwa [List.nil_append, List.dropWhile_cons_of_neg (by simp)] at hmem

theorem nodup_findCycles (h : findCycles le g order = some cycles) : cycles.Nodup := by
  unfold findCycles at h
  obtain ⟨found, hfound, rfl⟩ := Option.map_eq_some_iff.mp h
  rw [(List.perm_insertionSort le found).nodup_iff]
  exact foldlM_keeps (fun _ _ _ _ hround => nodup_of_visit hround) hfound List.nodup_nil

/-- The answer depends on the edges only. -/
theorem findCycles_congr [Std.Total le] [IsTrans _ le] [Std.Antisymm le] {g' : Graph α}
    {order' : List α} (hedge : Edge g = Edge g') (horder : nodes g ⊆ order)
    (horder' : nodes g' ⊆ order') (h : findCycles le g order = some cycles)
    (h' : findCycles le g' order' = some cycles') : cycles = cycles' := by
  have hperm : cycles.Perm cycles' := by
    refine (List.perm_ext_iff_of_nodup (nodup_findCycles h) (nodup_findCycles h')).mpr fun c => ?_
    rw [mem_findCycles horder h, mem_findCycles horder' h', Shown, Shown, hedge]
  have hsorted : ∀ {g : Graph α} {order : List α} {cycles : List (List α)},
      findCycles le g order = some cycles → cycles.Pairwise le := by
    intro g order cycles h
    obtain ⟨found, -, rfl⟩ := Option.map_eq_some_iff.mp h
    exact List.pairwise_insertionSort le found
  exact hperm.eq_of_pairwise (fun _ _ _ _ hab hba => Std.Antisymm.antisymm _ _ hab hba)
    (hsorted h) (hsorted h')

/-! ## Cycles and ways around -/

omit [DecidableEq α] in
variable {r : α → α → Prop}

theorem transGen_of_chain {a b : α} (h : (a :: rest ++ [b]).IsChain r) : TransGen r a b := by
  induction rest generalizing a with
  | nil => exact .single (List.isChain_cons_cons.mp h).1
  | cons c rest ih =>
    obtain ⟨hac, hrest⟩ := List.isChain_cons_cons.mp h
    exact .head hac (ih hrest)

omit [DecidableEq α] in
theorem chain_of_transGen {a b : α} (h : TransGen r a b) :
    ∃ rest, (a :: rest ++ [b]).IsChain r := by
  induction h using TransGen.head_induction_on with
  | single hab => exact ⟨[], List.isChain_pair.mpr hab⟩
  | head hac _ ih =>
    obtain ⟨rest, hrest⟩ := ih
    exact ⟨_ :: rest, List.isChain_cons_cons.mpr ⟨hac, hrest⟩⟩

theorem exists_twice {xs : List α} (h : ¬xs.Nodup) :
    ∃ x before between after, xs = before ++ (x :: between ++ [x]) ++ after := by
  induction xs with
  | nil => exact absurd List.nodup_nil h
  | cons a xs ih =>
    by_cases ha : a ∈ xs
    · obtain ⟨between, after, rfl, -⟩ := List.eq_append_cons_of_mem ha
      exact ⟨a, [], between, after, by simp⟩
    · obtain ⟨x, before, between, after, rfl⟩ := ih fun hxs => h (List.nodup_cons.mpr ⟨ha, hxs⟩)
      exact ⟨x, a :: before, between, after, by simp⟩

/-- A way around that meets a node twice has a shorter one inside. -/
theorem exists_simpleCycle {a : α} (h : (a :: rest ++ [a]).IsChain (Edge g)) :
    ∃ body, SimpleCycle (Edge g) body := by
  induction hlen : rest.length using Nat.strong_induction_on generalizing a rest with
  | _ n ih =>
    by_cases hnodup : (a :: rest).Nodup
    · exact ⟨a :: rest, List.cons_ne_nil _ _, hnodup, h⟩
    · obtain ⟨x, before, between, after, hsplit⟩ := exists_twice hnodup
      have hshort : (x :: between ++ [x]).IsChain (Edge g) := by
        rw [hsplit] at h
        exact h.left_of_append.left_of_append.right_of_append
      refine ih between.length ?_ hshort rfl
      have hle := congrArg List.length hsplit
      simp only [List.length_append, List.length_cons, List.length_nil] at hle
      omega

theorem exists_simpleCycle_iff :
    (∃ body, SimpleCycle (Edge g) body) ↔ ¬Relations.Acyclic (Edge g) := by
  unfold Relations.Acyclic
  rw [not_forall_not]
  constructor
  · rintro ⟨body, hbody⟩
    cases body with
    | nil => exact absurd rfl hbody.nonempty
    | cons a rest => exact ⟨a, transGen_of_chain hbody.chain⟩
  · rintro ⟨a, hcycle⟩
    obtain ⟨rest, hrest⟩ := chain_of_transGen hcycle
    exact exists_simpleCycle hrest

theorem findCycles_eq_nil_iff (horder : nodes g ⊆ order) (h : findCycles le g order = some cycles) :
    cycles = [] ↔ Relations.Acyclic (Edge g) := by
  rw [← not_iff_not, ← exists_simpleCycle_iff]
  constructor
  · intro hne
    obtain ⟨c, hc⟩ := List.exists_mem_of_ne_nil cycles hne
    obtain ⟨body, hbody, -⟩ := (mem_findCycles horder h).mp hc
    exact ⟨body, hbody⟩
  · rintro ⟨body, hbody⟩ hnil
    have hmem := (mem_findCycles horder h).mpr ⟨body, hbody, rfl⟩
    rw [hnil] at hmem
    cases hmem

end Cycles
end Lib
end ZeroRuntime
