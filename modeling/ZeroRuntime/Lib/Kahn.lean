import Mathlib.Data.List.Perm.Subperm
import Mathlib.Data.List.Sort
import Mathlib.Logic.Function.Basic
import ZeroRuntime.Lib.Lexicographic
import ZeroRuntime.Lib.Reach
import ZeroRuntime.Lib.Relations

/-!
# ZeroRuntime.Lib.Kahn

Topological sorting by counting the edges into each node: of the nodes without any left, the one of
the smallest number comes next.

* `drain`: the loop over the nodes that are ready, which is kept sorted by number.
* `Available done x`: `x` is not taken and all before it is.
* `Greedy done rest`: each of `rest` is the smallest of those available when it is taken.
* `Greedy.le`: the numbers of such an order are lexicographically the smallest of all topological
  orders.
-/

namespace ZeroRuntime
namespace Lib
namespace Kahn

open Relation Reach

variable {α : Type} [DecidableEq α]

/-- `sorted(nodes, key=seq)` -/
def bySeq (seq : α → ℕ) (nodes : List α) : List α := nodes.insertionSort fun a b => seq a ≤ seq b

/-- How many edges lead into a node. -/
def incoming (edges : Edges α) (b : α) : ℤ := (edges.countP fun e => e.2 = b : ℕ)

/-- The nodes the edges of a node lead to. -/
def outgoing (edges : Edges α) (a : α) : List α := (edges.filter fun e => e.1 = a).map Prod.snd

/-- The loop over the nodes that a node taken leads to. -/
def releaseEach (seq : α → ℕ) : List α → (α → ℤ) × List α → (α → ℤ) × List α
  | [], acc => acc
  | d :: ds, (counts, ready) =>
    let counts := Function.update counts d (counts d - 1)
    releaseEach seq ds (counts, if counts d = 0 then bySeq seq (ready ++ [d]) else ready)

/-- The loop over the nodes that are ready. `fuel` bounds how many are taken. -/
def drain (edges : Edges α) (seq : α → ℕ) : ℕ → (α → ℤ) × List α → List α
  | _, (_, []) => []
  | 0, (_, _ :: _) => []
  | fuel + 1, (counts, node :: ready) =>
    node :: drain edges seq fuel
      (releaseEach seq (bySeq seq (outgoing edges node)) (counts, ready))

def topologicalOrder (nodes : List α) (edges : Edges α) (seq : α → ℕ) : List α :=
  let ready := bySeq seq (nodes.filter fun a => incoming edges a = 0)
  drain edges seq nodes.length (incoming edges, ready)

/-! ## Sorting -/

omit [DecidableEq α] in
theorem bySeq_perm (seq : α → ℕ) (nodes : List α) : (bySeq seq nodes).Perm nodes :=
  List.perm_insertionSort _ nodes

omit [DecidableEq α] in
theorem mem_bySeq {seq : α → ℕ} {nodes : List α} {a : α} : a ∈ bySeq seq nodes ↔ a ∈ nodes :=
  (bySeq_perm seq nodes).mem_iff

/-- Every node of the list has at least the number of those before it. -/
def Ascending (seq : α → ℕ) (nodes : List α) : Prop := nodes.Pairwise fun a b => seq a ≤ seq b

omit [DecidableEq α] in
theorem ascending_bySeq (seq : α → ℕ) (nodes : List α) : Ascending seq (bySeq seq nodes) :=
  haveI : Std.Total fun a b : α => seq a ≤ seq b := ⟨fun a b => Nat.le_total (seq a) (seq b)⟩
  haveI : IsTrans α fun a b => seq a ≤ seq b := ⟨fun _ _ _ => Nat.le_trans⟩
  List.pairwise_insertionSort _ nodes

/-! ## Releasing -/

theorem counts_releaseEach (seq : α → ℕ) (ds : List α) (counts : α → ℤ) (ready : List α) :
    (releaseEach seq ds (counts, ready)).1 = fun x => counts x - ds.count x := by
  induction ds generalizing counts ready with
  | nil => simp [releaseEach]
  | cons d ds ih =>
    unfold releaseEach
    dsimp only
    rw [ih]
    funext x
    by_cases hx : x = d
    · rw [hx, Function.update_self, List.count_cons_self]
      push_cast
      omega
    · rw [Function.update_of_ne hx, List.count_cons_of_ne (Ne.symm hx)]

/-- The nodes that are ready after a node that leads to `ds` was taken. -/
structure Released (seq : α → ℕ) (ds : List α) (counts : α → ℤ) (ready ready' : List α) : Prop where
  nodup : ready'.Nodup
  ascending : Ascending seq ready'
  mem_iff : ∀ x, x ∈ ready' ↔ x ∈ ready ∨ x ∈ ds ∧ counts x = ds.count x

/-- A node that is waiting for edges becomes ready with the last of them. -/
theorem released {seq : α → ℕ} {ds : List α} {counts : α → ℤ} {ready : List α}
    (hready : ready.Nodup) (hsorted : Ascending seq ready)
    (hds : ∀ d ∈ ds, d ∉ ready ∧ (ds.count d : ℤ) ≤ counts d) :
    Released seq ds counts ready (releaseEach seq ds (counts, ready)).2 := by
  induction ds generalizing counts ready with
  | nil => exact ⟨hready, hsorted, by simp [releaseEach]⟩
  | cons d ds ih =>
    have hd := hds d List.mem_cons_self
    have hself : ((d :: ds).count d : ℤ) = ds.count d + 1 := by
      rw [List.count_cons_self]
      push_cast
      rfl
    have hother : ∀ {x}, x ≠ d → (d :: ds).count x = ds.count x := fun hx =>
      List.count_cons_of_ne (Ne.symm hx)
    unfold releaseEach
    dsimp only
    rw [Function.update_self]
    by_cases hlast : counts d - 1 = 0
    · rw [if_pos hlast]
      have hgone : d ∉ ds := by
        intro hmem
        have hpos := List.count_pos_iff.mpr hmem
        omega
      have hnodup : (bySeq seq (ready ++ [d])).Nodup := by
        rw [(bySeq_perm seq _).nodup_iff]
        exact List.nodup_append.mpr ⟨hready, List.nodup_singleton d, fun a ha b hb hab =>
          hd.1 (List.mem_singleton.mp hb ▸ hab ▸ ha)⟩
      have hrest : ∀ x ∈ ds, x ∉ bySeq seq (ready ++ [d]) ∧
          (ds.count x : ℤ) ≤ Function.update counts d (counts d - 1) x := by
        intro x hx
        have hne : x ≠ d := fun heq => hgone (heq ▸ hx)
        have hold := hds x (List.mem_cons_of_mem d hx)
        rw [hother hne] at hold
        rw [Function.update_of_ne hne, mem_bySeq, List.mem_append, List.mem_singleton, not_or]
        exact ⟨⟨hold.1, hne⟩, hold.2⟩
      have h := ih hnodup (ascending_bySeq seq _) hrest
      refine ⟨h.nodup, h.ascending, fun x => ?_⟩
      rw [h.mem_iff, mem_bySeq, List.mem_append, List.mem_singleton, List.mem_cons]
      by_cases hx : x = d
      · have hnone : ds.count d = 0 := List.count_eq_zero.mpr hgone
        have hone : counts d = (d :: ds).count d := by omega
        rw [hx]
        exact ⟨fun _ => .inr ⟨.inl rfl, hone⟩, fun _ => .inl (.inr rfl)⟩
      · rw [Function.update_of_ne hx, hother hx]
        simp only [hx, or_false, false_or]
    · rw [if_neg hlast]
      have hrest : ∀ x ∈ ds, x ∉ ready ∧
          (ds.count x : ℤ) ≤ Function.update counts d (counts d - 1) x := by
        intro x hx
        have hold := hds x (List.mem_cons_of_mem d hx)
        by_cases hxd : x = d
        · rw [hxd, hself] at hold
          rw [hxd, Function.update_self]
          exact ⟨hold.1, by omega⟩
        · rw [hother hxd] at hold
          rw [Function.update_of_ne hxd]
          exact hold
      have h := ih hready hsorted hrest
      refine ⟨h.nodup, h.ascending, fun x => ?_⟩
      rw [h.mem_iff, List.mem_cons]
      by_cases hx : x = d
      · rw [hx, Function.update_self, hself]
        have hmore : counts d - 1 = ds.count d → d ∈ ds := fun heq =>
          List.count_pos_iff.mp (by omega)
        refine or_congr_right ⟨fun h => ⟨.inl rfl, by omega⟩, fun h => ?_⟩
        exact ⟨hmore (by omega), by omega⟩
      · rw [Function.update_of_ne hx, hother hx]
        simp only [hx, false_or]

/-! ## Greedy orders -/

section Greedy

variable (nodes : List α) (edges : Edges α) (seq : α → ℕ)

/-- All before `x` is taken, and it is not. -/
def Available (done : List α) (x : α) : Prop :=
  x ∈ nodes ∧ x ∉ done ∧ ∀ a, (a, x) ∈ edges → a ∈ done

/-- The nodes `rest` as they are taken after those of `done`. -/
def Greedy (done : List α) : List α → Prop
  | [] => ∀ x, ¬Available nodes edges done x
  | x :: rest =>
    Available nodes edges done x ∧ (∀ y, Available nodes edges done y → seq x ≤ seq y) ∧
      Greedy (done ++ [x]) rest

/-- All nodes, each after those that lead to it. -/
structure Topological (order : List α) : Prop where
  perm : order.Perm nodes
  after : ∀ a b, (a, b) ∈ edges → order.idxOf a < order.idxOf b

/-- The edges into `x` from nodes that are not taken. -/
def waiting (done : List α) (x : α) : ℕ := edges.countP fun e => e.2 = x ∧ e.1 ∉ done

/-- What the loop keeps when the nodes of `done` are taken. -/
structure Counted (done : List α) (counts : α → ℤ) (ready : List α) : Prop where
  closed : ∀ a b, (a, b) ∈ edges → b ∈ done → a ∈ done
  counts : ∀ x, counts x = waiting edges done x
  nodup : ready.Nodup
  ascending : Ascending seq ready
  mem_iff : ∀ x, x ∈ ready ↔ Available nodes edges done x

variable {nodes edges seq}

variable {done : List α} {x : α}

theorem waiting_eq_zero : waiting edges done x = 0 ↔ ∀ a, (a, x) ∈ edges → a ∈ done := by
  unfold waiting
  rw [List.countP_eq_zero]
  constructor
  · intro h a ha
    by_contra hnot
    exact h (a, x) ha (decide_eq_true ⟨rfl, hnot⟩)
  · rintro h ⟨a, b⟩ he hwaiting
    obtain ⟨hb, hnot⟩ := of_decide_eq_true hwaiting
    have heq : b = x := hb
    rw [heq] at he
    exact hnot (h a he)

theorem count_outgoing (node x : α) :
    (bySeq seq (outgoing edges node)).count x =
      edges.countP fun e => e.1 = node ∧ e.2 = x := by
  rw [(bySeq_perm seq _).count_eq]
  unfold outgoing
  rw [List.count_eq_countP, List.countP_map, List.countP_filter]
  refine List.countP_congr fun e _ => ?_
  simp [and_comm]

/-- Taking a node takes the edges that leave it away. -/
theorem waiting_snoc {done : List α} {node : α} (hnode : node ∉ done) (x : α) :
    waiting edges done x =
      waiting edges (done ++ [node]) x + (bySeq seq (outgoing edges node)).count x := by
  rw [count_outgoing]
  unfold waiting
  induction edges with
  | nil => rfl
  | cons e es ih =>
    obtain ⟨a, b⟩ := e
    rw [List.countP_cons, List.countP_cons, List.countP_cons, ih]
    by_cases ha : a = node
    · rw [ha]
      by_cases hb : b = x
      · simp [hb, hnode]
        omega
      · simp [hb]
    · simp [ha]
      omega

theorem mem_outgoing {node : α} : x ∈ outgoing edges node ↔ (node, x) ∈ edges := by
  unfold outgoing
  rw [List.mem_map]
  constructor
  · rintro ⟨⟨a, b⟩, he, rfl⟩
    obtain ⟨he, ha⟩ := List.mem_filter.mp he
    have heq : a = node := of_decide_eq_true ha
    exact heq ▸ he
  · intro he
    exact ⟨(node, x), List.mem_filter.mpr ⟨he, decide_eq_true rfl⟩, rfl⟩

theorem counted_start (hnodes : nodes.Nodup) :
    Counted nodes edges seq [] (incoming edges)
      (bySeq seq (nodes.filter fun a => incoming edges a = 0)) := by
  have hwaiting : ∀ x, incoming edges x = waiting edges [] x := by
    intro x
    unfold incoming waiting
    simp
  refine ⟨fun _ _ _ h => absurd h List.not_mem_nil, hwaiting, ?_, ascending_bySeq seq _, ?_⟩
  · rw [(bySeq_perm seq _).nodup_iff]
    exact hnodes.filter _
  · intro x
    rw [mem_bySeq, List.mem_filter, decide_eq_true_iff, hwaiting, Int.natCast_eq_zero,
      waiting_eq_zero]
    exact ⟨fun ⟨hx, h⟩ => ⟨hx, List.not_mem_nil, h⟩, fun ⟨hx, _, h⟩ => ⟨hx, h⟩⟩

theorem counted_step {ready : List α} {counts : α → ℤ} {node : α} (hends : ∀ e ∈ edges, e.2 ∈ nodes)
    (h : Counted nodes edges seq done counts (node :: ready)) :
    Counted nodes edges seq (done ++ [node])
      (releaseEach seq (bySeq seq (outgoing edges node)) (counts, ready)).1
      (releaseEach seq (bySeq seq (outgoing edges node)) (counts, ready)).2 := by
  obtain ⟨hnode, hnew, hbefore⟩ := (h.mem_iff node).mp List.mem_cons_self
  obtain ⟨hnotin, hnodup⟩ := List.nodup_cons.mp h.nodup
  have hsplit := fun x => @waiting_snoc α _ edges seq done node hnew x
  have hblocked : ∀ x, (node, x) ∈ edges → x ∉ ready := by
    intro x hx hmem
    exact hnew (((h.mem_iff x).mp (List.mem_cons_of_mem _ hmem)).2.2 node hx)
  have hds : ∀ d ∈ bySeq seq (outgoing edges node),
      d ∉ ready ∧ ((bySeq seq (outgoing edges node)).count d : ℤ) ≤ counts d := by
    intro d hd
    rw [h.counts, hsplit]
    exact ⟨hblocked d (mem_outgoing.mp (mem_bySeq.mp hd)), by omega⟩
  have hr := released hnodup (List.pairwise_cons.mp h.ascending).2 hds
  refine ⟨?_, ?_, hr.nodup, hr.ascending, fun x => ?_⟩
  · intro a b hab hb
    rw [List.mem_append, List.mem_singleton] at hb ⊢
    rcases hb with hb | rfl
    · exact .inl (h.closed a b hab hb)
    · exact .inl (hbefore a hab)
  · intro x
    have hx := h.counts x
    rw [hsplit] at hx
    rw [counts_releaseEach]
    dsimp only
    omega
  · rw [hr.mem_iff, h.counts, hsplit]
    have hzero : ∀ m n : ℕ, ((m + n : ℕ) : ℤ) = n ↔ m = 0 := by omega
    rw [hzero, waiting_eq_zero, mem_bySeq, mem_outgoing]
    constructor
    · rintro (hmem | ⟨hedge, hall⟩)
      · obtain ⟨hx, hnot, hx'⟩ := (h.mem_iff x).mp (List.mem_cons_of_mem _ hmem)
        have hne : x ≠ node := fun heq => hnotin (heq ▸ hmem)
        refine ⟨hx, ?_, fun a ha => List.mem_append_left _ (hx' a ha)⟩
        rw [List.mem_append, List.mem_singleton, not_or]
        exact ⟨hnot, hne⟩
      · refine ⟨hends _ hedge, ?_, hall⟩
        rw [List.mem_append, List.mem_singleton, not_or]
        refine ⟨fun hx => hnew (h.closed node x hedge hx), fun heq => ?_⟩
        rw [heq] at hedge
        exact hnew (hbefore node hedge)
    · rintro ⟨hx, hnot, hall⟩
      rw [List.mem_append, List.mem_singleton, not_or] at hnot
      by_cases hedge : (node, x) ∈ edges
      · exact .inr ⟨hedge, hall⟩
      · have havail : Available nodes edges done x := by
          refine ⟨hx, hnot.1, fun a ha => ?_⟩
          have hmem := hall a ha
          rw [List.mem_append, List.mem_singleton] at hmem
          exact hmem.resolve_right fun heq => hedge (heq ▸ ha)
        exact .inl (List.mem_of_ne_of_mem hnot.2 ((h.mem_iff x).mpr havail))

theorem greedy_drain {fuel : ℕ} {ready : List α} {counts : α → ℤ} (hends : ∀ e ∈ edges, e.2 ∈ nodes)
    (h : Counted nodes edges seq done counts ready) (hfuel : nodes.length ≤ fuel + done.length)
    (hdone : done.Nodup) (hsub : done ⊆ nodes) :
    Greedy nodes edges seq done (drain edges seq fuel (counts, ready)) := by
  induction fuel generalizing done counts ready with
  | zero =>
    cases ready with
    | nil => exact fun x hx => absurd ((h.mem_iff x).mpr hx) List.not_mem_nil
    | cons node ready =>
      -- more nodes would be taken than there are
      obtain ⟨hnode, hnew, -⟩ := (h.mem_iff node).mp List.mem_cons_self
      have hle : (node :: done).length ≤ nodes.length :=
        (List.subperm_of_subset (List.nodup_cons.mpr ⟨hnew, hdone⟩)
          (List.cons_subset.mpr ⟨hnode, hsub⟩)).length_le
      rw [List.length_cons] at hle
      omega
  | succ fuel ih =>
    cases ready with
    | nil => exact fun x hx => absurd ((h.mem_iff x).mpr hx) List.not_mem_nil
    | cons node ready =>
      have hnode := (h.mem_iff node).mp List.mem_cons_self
      refine ⟨hnode, fun y hy => ?_, ?_⟩
      · rcases List.mem_cons.mp ((h.mem_iff y).mpr hy) with rfl | hmem
        · exact Nat.le_refl _
        · exact (List.pairwise_cons.mp h.ascending).1 y hmem
      · refine ih (counted_step hends h) ?_ ?_ ?_
        · rw [List.length_append, List.length_singleton]
          omega
        · exact List.nodup_append.mpr ⟨hdone, List.nodup_singleton node, fun a ha b hb hab =>
            hnode.2.1 (List.mem_singleton.mp hb ▸ hab ▸ ha)⟩
        · exact List.append_subset.mpr ⟨hsub, List.cons_subset.mpr ⟨hnode.1, List.nil_subset _⟩⟩

/-- Where there is no cycle, something is available until all is taken. -/
theorem exists_available (hends : ∀ e ∈ edges, e.1 ∈ nodes)
    (hacyclic : Relations.Acyclic (Edge edges)) (hx : x ∈ nodes) (hnot : x ∉ done) :
    ∃ y, Available nodes edges done y := by
  have hback : Relations.Acyclic fun a b => Edge edges b a := by
    intro a hcycle
    exact hacyclic a (TransGen.swap a a hcycle)
  obtain ⟨rank, hrank⟩ := Relations.exists_rank (fun a b hab => hends _ hab) hback
  -- going back from `x` over nodes not taken ends at an available one
  have hdown : ∀ n x, rank x ≤ n → x ∈ nodes → x ∉ done → ∃ y, Available nodes edges done y := by
    intro n
    induction n with
    | zero =>
      intro x hle hx hnot
      refine ⟨x, hx, hnot, fun a ha => ?_⟩
      have hlt := hrank x a ha
      omega
    | succ n ih =>
      intro x hle hx hnot
      by_cases hall : ∀ a, (a, x) ∈ edges → a ∈ done
      · exact ⟨x, hx, hnot, hall⟩
      · rw [not_forall] at hall
        obtain ⟨a, ha⟩ := hall
        obtain ⟨hedge, hnew⟩ := Classical.not_imp.mp ha
        have hlt := hrank x a hedge
        exact ih a (by omega) (hends _ hedge) hnew
  exact hdown (rank x) x (Nat.le_refl _) hx hnot

omit [DecidableEq α] in
variable {rest : List α}

theorem Greedy.nodup (h : Greedy nodes edges seq done rest) (hdone : done.Nodup) :
    (done ++ rest).Nodup := by
  induction rest generalizing done with
  | nil => simpa using hdone
  | cons x rest ih =>
    have hsnoc : (done ++ [x]).Nodup := List.nodup_append.mpr
      ⟨hdone, List.nodup_singleton x, fun a ha b hb hab =>
        h.1.2.1 (List.mem_singleton.mp hb ▸ hab ▸ ha)⟩
    simpa using ih h.2.2 hsnoc

theorem Greedy.mem (h : Greedy nodes edges seq done rest) (hends : ∀ e ∈ edges, e.1 ∈ nodes)
    (hacyclic : Relations.Acyclic (Edge edges)) (hx : x ∈ nodes) : x ∈ done ++ rest := by
  induction rest generalizing done with
  | nil =>
    rw [List.append_nil]
    by_contra hnot
    obtain ⟨y, hy⟩ := exists_available hends hacyclic hx hnot
    exact h y hy
  | cons y rest ih => simpa using ih h.2.2

omit [DecidableEq α] in
theorem Greedy.subset (h : Greedy nodes edges seq done rest) : rest ⊆ nodes := by
  induction rest generalizing done with
  | nil => exact List.nil_subset _
  | cons x rest ih => exact List.cons_subset.mpr ⟨h.1.1, ih h.2.2⟩

theorem Greedy.after (h : Greedy nodes edges seq done rest) {a b : α} (hab : (a, b) ∈ edges)
    (hb : b ∈ rest) : (done ++ rest).idxOf a < (done ++ rest).idxOf b := by
  induction rest generalizing done with
  | nil => exact absurd hb List.not_mem_nil
  | cons x rest ih =>
    by_cases hx : b = x
    · obtain ⟨⟨-, hnew, hbefore⟩, -, -⟩ := h
      rw [hx] at hab ⊢
      have ha := hbefore a hab
      rw [List.idxOf_append_of_mem ha, List.idxOf_append_of_notMem hnew]
      have hlt := List.idxOf_lt_length_of_mem ha
      omega
    · have hrest := ih h.2.2 (List.mem_of_ne_of_mem hx hb)
      simpa using hrest

theorem Greedy.topological {order : List α} (h : Greedy nodes edges seq [] order)
    (hnodes : nodes.Nodup) (hends : ∀ e ∈ edges, e.1 ∈ nodes ∧ e.2 ∈ nodes)
    (hacyclic : Relations.Acyclic (Edge edges)) : Topological nodes edges order := by
  have hmem : ∀ x ∈ nodes, x ∈ order := fun x hx =>
    h.mem (fun e he => (hends e he).1) hacyclic hx
  refine ⟨?_, fun a b hab => h.after hab (hmem b (hends _ hab).2)⟩
  exact (List.perm_ext_iff_of_nodup (h.nodup List.nodup_nil) hnodes).mpr
    fun x => ⟨fun hx => h.subset hx, hmem x⟩

/-- The next node of a topological order is available. -/
theorem available_of_topological {y : α} (h : Topological nodes edges (done ++ y :: rest))
    (hnodes : nodes.Nodup) : Available nodes edges done y := by
  have hnodup : (done ++ y :: rest).Nodup := h.perm.nodup_iff.mpr hnodes
  have hnew : y ∉ done := fun hy =>
    (List.nodup_append.mp hnodup).2.2 y hy y List.mem_cons_self rfl
  refine ⟨h.perm.mem_iff.mp (by simp), hnew, fun a ha => ?_⟩
  by_contra hnot
  have hlt := h.after a y ha
  rw [List.idxOf_append_of_notMem hnew, List.idxOf_append_of_notMem hnot, List.idxOf_cons_self]
    at hlt
  omega

/-- At the first place where another topological order differs, it has a greater number. -/
theorem Greedy.le {rest' : List α} (h : Greedy nodes edges seq done rest) (hnodes : nodes.Nodup)
    (hseq : ∀ a ∈ nodes, ∀ b ∈ nodes, seq a = seq b → a = b)
    (h' : Topological nodes edges (done ++ rest')) :
    LexLe (· ≤ ·) (rest.map seq) (rest'.map seq) := by
  induction rest generalizing done rest' with
  | nil => exact trivial
  | cons x rest ih =>
    cases rest' with
    | nil =>
      have hx : x ∈ done ++ [] := h'.perm.mem_iff.mpr h.1.1
      rw [List.append_nil] at hx
      exact absurd hx h.1.2.1
    | cons y rest' =>
      have hy := available_of_topological h' hnodes
      rw [List.map_cons, List.map_cons]
      rcases Nat.lt_or_eq_of_le (h.2.1 y hy) with hlt | heq
      · exact .inl ⟨Nat.ne_of_lt hlt, Nat.le_of_lt hlt⟩
      · obtain rfl := hseq x h.1.1 y hy.1 heq
        refine .inr ⟨rfl, ih h.2.2 ?_⟩
        rw [List.append_assoc]
        exact h'

theorem greedy_topologicalOrder (hnodes : nodes.Nodup) (hends : ∀ e ∈ edges, e.2 ∈ nodes) :
    Greedy nodes edges seq [] (topologicalOrder nodes edges seq) :=
  greedy_drain hends (counted_start hnodes) (Nat.le_refl _) List.nodup_nil (List.nil_subset _)

end Greedy

end Kahn
end Lib
end ZeroRuntime
