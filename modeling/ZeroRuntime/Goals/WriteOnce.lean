import ZeroRuntime.Goals.IdentityGraph
import ZeroRuntime.Lib.Machine

/-!
# ZeroRuntime.Goals.WriteOnce

What becomes of the fields that have been attached to a record.

* `Kept`: every field that was ever attached is in the record and in its graph. `Seen`: a value that
  says something else of such a field does not pass beside the record.
* `Full` and `Shown` are what the graphs and the other value must meet.
-/

namespace ZeroRuntime
namespace Goals
namespace WriteOnce

open Lib

/-! ## The record and what was attached to it -/

structure Tracked where
  record : Entries
  attached : List (String × String)

section Run

variable (digest : Val → String)

def attachedBy (graph : Val) : List (String × String) :=
  match canonicalGraph digest graph with
  | .ok canonical => canonical.named
  | .error _ => []

/-- A call that raises leaves the record as it is. -/
def attaching : Machine Tracked Val (Except Err Entries) where
  step t graph :=
    match attach digest t.record graph with
    | .ok record => (.ok record, ⟨record, t.attached ++ attachedBy digest graph⟩)
    | .error e => (.error e, t)

/-- What was attached is a field of the record, and of its graph, which has its fingerprint. -/
structure Kept (t : Tracked) : Prop where
  flat : ∀ e ∈ t.attached, Val.getIn e.1 t.record = .str e.2
  nested : ∀ e ∈ t.attached, ∃ graph, Val.getIn "runtime_identity_graph" t.record = .dict graph ∧
    Val.getIn e.1 graph = .str e.2 ∧
    Val.getIn "identity_graph_fingerprint" graph = .str (identityGraphFingerprint digest graph)

/-- The graph has another value for a field that was attached. -/
def Differs (t : Tracked) (graph : IdentityGraph) : Prop :=
  ∃ e ∈ t.attached, graph.field e.1 ≠ "" ∧ graph.field e.1 ≠ e.2

/-- The value says something else of the record. -/
def Strays (t : Tracked) (other : Val) : Prop :=
  ∃ graph, canonicalGraph digest other = .ok graph ∧ Differs t graph

def Raises (t : Tracked) (other : Val) : Prop :=
  ∀ graph, assertConsistency digest [.dict t.record, other] ≠ .ok graph

/-- The graph that is attached has every field that was attached before. -/
def Full (t : Tracked) (graph : Val) : Prop :=
  ∀ record canonical, attach digest t.record graph = .ok record →
    canonicalGraph digest graph = .ok canonical → ∀ e ∈ t.attached, canonical.field e.1 ≠ ""

/-- What differs from the record does not pass beside it. -/
def Seen (t : Tracked) (other : Val) : Prop := Strays digest t other → Raises digest t other

/-- The mapping that is compared, the value's own graph where it has one, names a field directly, and
it too differs if it can be read. -/
def Shown (t : Tracked) (other : Val) : Prop :=
  ∃ kvs, other = .dict kvs ∧ namesIdentity (graphOf kvs) = true ∧
    ∀ graph, canonicalGraph digest (.dict (graphOf kvs)) = .ok graph → Differs t graph

structure Inv (t : Tracked) : Prop where
  flat : ∀ e ∈ t.attached, Val.getIn e.1 t.record = .str e.2
  fields : ∀ e ∈ t.attached, e.1 ∈ identityGraphFields ∧ e.2 ≠ "" ∧ Text.strip e.2 = e.2
  nested : t.attached ≠ [] → ∃ graph, Canonical graph ∧
    Val.getIn "runtime_identity_graph" t.record = .dict (graph.mapping digest) ∧
    ∀ e ∈ graph.named, e ∈ t.attached

end Run

section Run

variable {digest : Val → String} {t : Tracked} {g : IdentityGraph} {graph other : Val}

/-! ## One call -/

/-- Each field is stored over a value that says the same, if any. -/
theorem getIn_attachFields {es : List (String × String)} (hnodup : (es.map Prod.fst).Nodup)
    {result result' : Entries} (h : es.foldlM attachField result = .ok result') :
    (∀ e ∈ es, Val.getIn e.1 result' = .str e.2 ∧
      ((Val.getIn e.1 result).text = "" ∨ (Val.getIn e.1 result).text = e.2)) ∧
    ∀ k, k ∉ es.map Prod.fst → Val.getIn k result' = Val.getIn k result := by
  induction es generalizing result with
  | nil =>
    cases h
    exact ⟨fun e he => (by cases he), fun k _ => rfl⟩
  | cons e es ih =>
    rw [List.foldlM_cons, bind_eq_ok] at h
    obtain ⟨next, hnext, h⟩ := h
    rw [List.map_cons, List.nodup_cons] at hnodup
    obtain ⟨hstored, hother⟩ := ih hnodup.2 h
    unfold attachField at hnext
    dsimp only at hnext
    split at hnext
    · cases hnext
    · rename_i hsame
      cases hnext
      refine ⟨fun e' he' => ?_, fun k hk => ?_⟩
      · rcases List.mem_cons.mp he' with rfl | he'
        · refine ⟨?_, ?_⟩
          · rw [hother _ hnodup.1, Val.getIn_put, if_pos rfl]
          · by_cases hblank : (Val.getIn e'.1 result).text = ""
            · exact .inl hblank
            · exact .inr (not_not.mp fun hne => hsame ⟨hblank, hne⟩)
        · have hne : e'.1 ≠ e.1 := fun heq => hnodup.1 (heq ▸ List.mem_map_of_mem he')
          have hstored' := hstored e' he'
          rw [Val.getIn_put, if_neg hne] at hstored'
          exact hstored'
      · rw [List.map_cons, List.mem_cons, not_or] at hk
        rw [hother k hk.2, Val.getIn_put, if_neg hk.1]

/-- A call that comes to an end stores the graph and each of its fields. -/
theorem attach_ok {target result : Entries} (h : attach digest target graph = .ok result) :
    ∃ canonical, canonicalGraph digest graph = .ok canonical ∧
      Val.getIn "runtime_identity_graph" result = .dict (canonical.mapping digest) ∧
      (∀ e ∈ canonical.named, Val.getIn e.1 result = .str e.2 ∧
        ((Val.getIn e.1 target).text = "" ∨ (Val.getIn e.1 target).text = e.2)) ∧
      ∀ k, k ∉ canonical.named.map Prod.fst → k ≠ "runtime_identity_graph" →
        Val.getIn k result = Val.getIn k target := by
  unfold attach at h
  obtain ⟨canonical, hcanonical, h⟩ := bind_eq_ok.mp h
  obtain ⟨-, -, h⟩ := bind_eq_ok.mp h
  obtain ⟨hstored, hother⟩ := getIn_attachFields canonical.nodup_named h
  have hnames : ∀ k ∈ canonical.named.map Prod.fst, k ≠ "runtime_identity_graph" := by
    intro k hk
    obtain ⟨e, he, rfl⟩ := List.mem_map.mp hk
    exact fun heq => absurd (heq ▸ (IdentityGraph.mem_named.mp he).1) (by decide)
  refine ⟨canonical, hcanonical, ?_, fun e he => ?_, fun k hk hne => ?_⟩
  · rw [hother _ fun hmem => hnames _ hmem rfl, Val.getIn_put, if_pos rfl]
  · obtain ⟨hget, hbefore⟩ := hstored e he
    rw [Val.getIn_put, if_neg (hnames e.1 (List.mem_map_of_mem he))] at hbefore
    exact ⟨hget, hbefore⟩
  · rw [hother k hk, Val.getIn_put, if_neg hne]

theorem fingerprint_mapping :
    Val.getIn "identity_graph_fingerprint" (g.mapping digest) =
      .str (identityGraphFingerprint digest (g.mapping digest)) := by
  have hnone : "identity_graph_fingerprint" ∉ g.named.map Prod.fst := by
    intro hmem
    obtain ⟨e, he, heq⟩ := List.mem_map.mp hmem
    exact absurd (heq ▸ (IdentityGraph.mem_named.mp he).1) (by decide)
  have hsame : ∀ k ∈ identityGraphFields, Val.getIn k (g.mapping digest) =
      Val.getIn k (g.named.map fun e => (e.1, Val.str e.2)) := by
    intro k hk
    have hne : k ≠ "identity_graph_fingerprint" := fun heq => absurd (heq ▸ hk) (by decide)
    unfold IdentityGraph.mapping Val.getIn
    rw [Val.find_append]
    cases Val.find k (g.named.map fun e => (e.1, Val.str e.2)) with
    | some v => rfl
    | none =>
      unfold Val.find
      rw [if_neg hne]
      rfl
  have hdigest : identityGraphFingerprint digest (g.mapping digest) =
      identityGraphFingerprint digest (g.named.map fun e => (e.1, Val.str e.2)) := by
    unfold identityGraphFingerprint
    refine congrArg (fun es => digest (.dict es)) (List.filterMap_congr fun k hk => ?_)
    rw [hsame k hk]
  rw [hdigest]
  unfold IdentityGraph.mapping Val.getIn
  rw [Val.find_append, find_texts_none hnone]
  rfl

variable {e : String × String}

/-- What a stored graph says of a field. -/
theorem getIn_mapping_iff (hfield : e.1 ∈ identityGraphFields) (hne : e.2 ≠ "") :
    Val.getIn e.1 (g.mapping digest) = .str e.2 ↔ g.field e.1 = e.2 := by
  have hk : e.1 ≠ "identity_graph_fingerprint" := fun heq => absurd (heq ▸ hfield) (by decide)
  rw [getIn_mapping hk]
  constructor
  · intro h
    split at h
    · exact Val.str.inj h
    · cases h
  · intro h
    rw [if_pos ⟨hfield, h.symm ▸ hne⟩, h]

theorem step_cases :
    ((∀ record, attach digest t.record graph ≠ .ok record) ∧
      ((attaching digest).step t graph).2 = t) ∨
    ∃ record, attach digest t.record graph = .ok record ∧
      ((attaching digest).step t graph).2 = ⟨record, t.attached ++ attachedBy digest graph⟩ := by
  unfold attaching
  dsimp only
  cases attach digest t.record graph with
  | ok record => exact .inr ⟨record, rfl, rfl⟩
  | error e => exact .inl ⟨fun record h => (by cases h), rfl⟩

theorem Inv.step (h : Inv digest t) : Inv digest ((attaching digest).step t graph).2 := by
  rcases @step_cases digest t graph with ⟨-, hstep⟩ | ⟨record, hattach, hstep⟩
  · rw [hstep]
    exact h
  · obtain ⟨canonical, hread, hnested, hstored, hother⟩ := attach_ok hattach
    have hby : attachedBy digest graph = canonical.named := by
      unfold attachedBy
      rw [hread]
    rw [hstep, hby]
    have hcanonical := canonical_of_ok hread
    refine ⟨fun e he => ?_, fun e he => ?_, fun _ => ⟨canonical, hcanonical, hnested, fun e he => ?_⟩⟩
    · rcases List.mem_append.mp he with he | he
      · obtain ⟨hfield, hne, hstrip⟩ := h.fields e he
        by_cases hmem : e.1 ∈ canonical.named.map Prod.fst
        · obtain ⟨e', he', heq⟩ := List.mem_map.mp hmem
          obtain ⟨hget, hbefore⟩ := hstored e' he'
          rw [heq, h.flat e he, text_str, hstrip] at hbefore
          rw [← heq, hget, hbefore.resolve_left hne]
        · rw [hother e.1 hmem fun heq => absurd (heq ▸ hfield) (by decide)]
          exact h.flat e he
      · exact (hstored e he).1
    · rcases List.mem_append.mp he with he | he
      · exact h.fields e he
      · obtain ⟨hfield, hvalue, hne⟩ := IdentityGraph.mem_named.mp he
        refine ⟨hfield, hne, ?_⟩
        rw [← hvalue]
        exact hcanonical.stripped e.1 hfield
    · exact List.mem_append_right _ he

/-- The fields stay if and only if the graph that is attached has them. -/
theorem full_iff_kept (h : Inv digest t) (hkept : Kept digest t) :
    Full digest t graph ↔ Kept digest ((attaching digest).step t graph).2 := by
  have hnext : Inv digest ((attaching digest).step t graph).2 := h.step
  rcases @step_cases digest t graph with ⟨hraise, hstep⟩ | ⟨record, hattach, hstep⟩
  · rw [hstep]
    exact ⟨fun _ => hkept, fun _ record _ hok => absurd hok (hraise record)⟩
  · obtain ⟨canonical, hread, hnested, hstored, -⟩ := attach_ok hattach
    have hby : attachedBy digest graph = canonical.named := by
      unfold attachedBy
      rw [hread]
    rw [hstep, hby] at hnext ⊢
    constructor
    · intro hfull
      refine ⟨hnext.flat, fun e he => ⟨_, hnested, ?_, fingerprint_mapping⟩⟩
      obtain ⟨hfield, hne, -⟩ := hnext.fields e he
      rw [getIn_mapping_iff hfield hne]
      have hnamed : canonical.field e.1 ≠ "" := by
        rcases List.mem_append.mp he with hold | hnew
        · exact hfull record canonical hattach hread e hold
        · rw [(IdentityGraph.mem_named.mp hnew).2.1]
          exact hne
      have hget := (hstored (e.1, canonical.field e.1)
        (IdentityGraph.mem_named.mpr ⟨hfield, rfl, hnamed⟩)).1
      exact Val.str.inj (hget.symm.trans (hnext.flat e he))
    · intro hafter record' canonical' _ hread' e he
      obtain rfl : canonical' = canonical := Except.ok.inj (hread'.symm.trans hread)
      obtain ⟨hfield, hne, -⟩ := h.fields e he
      obtain ⟨stored, hgraph, hget, -⟩ := hafter.nested e (List.mem_append_left _ he)
      rw [Val.dict.inj (hgraph.symm.trans hnested), getIn_mapping_iff hfield hne] at hget
      rw [hget]
      exact hne

/-! ## The consistency check -/

theorem checkDrift_eq_ok {expected graph : IdentityGraph} :
    checkDrift expected graph = .ok () ↔ ∀ k ∈ identityGraphFields,
      expected.field k ≠ "" → graph.field k ≠ "" → expected.field k = graph.field k := by
  unfold checkDrift
  rw [forM_eq_ok]
  refine forall₂_congr fun k _ => ?_
  split
  · rename_i hdrift
    refine ⟨fun h => (by cases h), fun h => absurd (h hdrift.1 hdrift.2.1) hdrift.2.2⟩
  · rename_i hdrift
    refine ⟨fun _ hexpected hgraph => ?_, fun _ => rfl⟩
    by_contra hne
    exact hdrift ⟨hexpected, hgraph, hne⟩

theorem namesIdentity_mapping (h : Canonical g) : namesIdentity (g.mapping digest) = true := by
  unfold namesIdentity
  refine List.any_eq_true.mpr ⟨"branch_type", by decide, ?_⟩
  have htype : g.field "branch_type" ≠ "" := h.typed
  rw [getIn_mapping (by decide), if_pos ⟨by decide, htype⟩]
  exact decide_eq_true htype

/-- The record's graph is the expected one, the other value is compared if it names a field. -/
theorem assert_record {kvs : Entries} (hg : Canonical g)
    (hrecord : Val.getIn "runtime_identity_graph" t.record = .dict (g.mapping digest)) :
    assertConsistency digest [.dict t.record, .dict kvs] =
      if namesIdentity (graphOf kvs) then
        (canonicalGraph digest (.dict (graphOf kvs))).bind fun graph =>
          (checkDrift g graph).map fun _ => g
      else .ok g := by
  have hgraph : graphOf t.record = g.mapping digest := by
    unfold graphOf
    rw [hrecord]
  have hcandidates : identityCandidates [.dict t.record, .dict kvs] =
      g.mapping digest :: if namesIdentity (graphOf kvs) then [graphOf kvs] else [] := by
    unfold identityCandidates
    rw [List.filterMap_cons, List.filterMap_cons, List.filterMap_nil]
    dsimp only
    rw [hgraph, List.filter_cons_of_pos (namesIdentity_mapping hg), List.filter_cons]
    rfl
  unfold assertConsistency
  rw [hcandidates]
  split
  · cases hread : canonicalGraph digest (.dict (graphOf kvs)) with
    | error e =>
      rw [List.mapM_cons, canonicalGraph_mapping hg, List.mapM_cons, hread]
      rfl
    | ok graph =>
      rw [List.mapM_cons, canonicalGraph_mapping hg, List.mapM_cons, hread]
      change ((checkDrift g graph >>= fun _ => .ok ()) >>= fun _ => .ok g) =
        (checkDrift g graph).map fun _ => g
      cases checkDrift g graph <;> rfl
  · rw [List.mapM_cons, canonicalGraph_mapping hg]
    rfl

theorem mem_attached_iff (h : Inv digest t) (hkept : Kept digest t)
    (hrecord : Val.getIn "runtime_identity_graph" t.record = .dict (g.mapping digest))
    (hnamed : ∀ e ∈ g.named, e ∈ t.attached) : e ∈ t.attached ↔ e ∈ g.named := by
  refine ⟨fun he => ?_, hnamed e⟩
  obtain ⟨hfield, hne, -⟩ := h.fields e he
  obtain ⟨stored, hgraph, hget, -⟩ := hkept.nested e he
  rw [Val.dict.inj (hgraph.symm.trans hrecord), getIn_mapping_iff hfield hne] at hget
  exact IdentityGraph.mem_named.mpr ⟨hfield, hget, hne⟩

/-- What differs is seen if and only if the mapping that is compared shows it. -/
theorem raises_iff_shown (h : Inv digest t) (hkept : Kept digest t) (hstrays : Strays digest t other) :
    Raises digest t other ↔ Shown digest t other := by
  obtain ⟨read, hread, e₀, he₀, -⟩ := hstrays
  obtain ⟨g, hg, hrecord, hnamed⟩ := h.nested (List.ne_nil_of_mem he₀)
  have hattached : ∀ e, e ∈ t.attached ↔ e ∈ g.named :=
    fun e => mem_attached_iff h hkept hrecord hnamed
  have hdrift : ∀ graph, checkDrift g graph = .ok () ↔ ¬ Differs t graph := by
    intro graph
    rw [checkDrift_eq_ok]
    constructor
    · rintro hsame ⟨e, he, hne, hdiffers⟩
      obtain ⟨hfield, hvalue, hvalue'⟩ := IdentityGraph.mem_named.mp ((hattached e).mp he)
      exact hdiffers ((hsame e.1 hfield (hvalue ▸ hvalue') hne).symm.trans hvalue)
    · intro hsame k hk hexpected hne
      by_contra hdiffers
      refine hsame ⟨(k, g.field k), ?_, hne, Ne.symm hdiffers⟩
      exact (hattached _).mpr (IdentityGraph.mem_named.mpr ⟨hk, rfl, hexpected⟩)
  cases other with
  | dict kvs =>
    have hcheck := @assert_record digest t g kvs hg hrecord
    unfold Raises
    rw [hcheck]
    constructor
    · intro hraises
      by_cases hnames : namesIdentity (graphOf kvs) = true
      · refine ⟨kvs, rfl, hnames, fun graph hgraph => ?_⟩
        rw [if_pos hnames, hgraph] at hraises
        by_contra hsame
        refine hraises g ?_
        change (checkDrift g graph).map (fun _ => g) = .ok g
        rw [(hdrift graph).mpr hsame]
        rfl
      · rw [if_neg hnames] at hraises
        exact absurd rfl (hraises g)
    · rintro ⟨kvs', hsame, hnames, hshown⟩ result hok
      cases hsame
      rw [if_pos hnames] at hok
      obtain ⟨graph, hgraph, hok⟩ := bind_eq_ok.mp hok
      obtain ⟨⟨⟩, hpass, -⟩ := map_eq_ok.mp hok
      exact (hdrift graph).mp hpass (hshown graph hgraph)
  | _ => cases hread

/-- Runtime identity is write-once, and a value that differs is seen, if and only if every graph that
is attached has the fields attached before, and the value shows what it differs in. -/
theorem identity_writeOnce_iff (digest : Val → String) (record : Entries) (graphs : List Val)
    (other : Val) :
    (∀ before, before <+: graphs → Kept digest ((attaching digest).run ⟨record, []⟩ before) ∧
        Seen digest ((attaching digest).run ⟨record, []⟩ before) other) ↔
      (attaching digest).Guarded (Full digest) ⟨record, []⟩ graphs ∧
        ∀ before, before <+: graphs →
          Strays digest ((attaching digest).run ⟨record, []⟩ before) other →
            Shown digest ((attaching digest).run ⟨record, []⟩ before) other := by
  have hstart : Inv digest ⟨record, []⟩ :=
    ⟨fun e he => (by cases he), fun e he => (by cases he), fun h => absurd rfl h⟩
  have hstartKept : Kept digest ⟨record, []⟩ := ⟨fun e he => (by cases he), fun e he => (by cases he)⟩
  have hinv : ∀ before, Inv digest ((attaching digest).run ⟨record, []⟩ before) :=
    fun before => Machine.run_invariant (fun _ _ h => h.step) before hstart
  have hfull : (attaching digest).Guarded (Full digest) ⟨record, []⟩ graphs ↔
      ∀ before, before <+: graphs → Kept digest ((attaching digest).run ⟨record, []⟩ before) :=
    Machine.guarded_iff_always (fun _ _ h => h.step) (fun _ _ h hkept => full_iff_kept h hkept)
      hstart hstartKept
  rw [hfull]
  constructor
  · intro h
    refine ⟨fun before hpre => (h before hpre).1, fun before hpre hstrays => ?_⟩
    obtain ⟨hkept, hseen⟩ := h before hpre
    exact (raises_iff_shown (hinv before) hkept hstrays).mp (hseen hstrays)
  · rintro ⟨hkept, hshown⟩ before hpre
    refine ⟨hkept before hpre, fun hstrays => ?_⟩
    exact (raises_iff_shown (hinv before) (hkept before hpre) hstrays).mpr (hshown before hpre hstrays)

end Run

/-- The second graph has no execution id: the record keeps it, and its graph does not. -/
theorem execution_id_lost :
    ¬ ∀ before, before <+: [Val.dict [("goal_id", .str "g"), ("execution_id", .str "e")],
        .dict [("goal_id", .str "g")]] →
      Kept (fun _ => "0") ((attaching fun _ => "0").run ⟨[], []⟩ before) ∧
        Seen (fun _ => "0") ((attaching fun _ => "0").run ⟨[], []⟩ before)
          (.dict [("goal_id", .str "g"), ("execution_id", .str "other")]) := by
  intro h
  obtain ⟨hkept, -⟩ := h _ (List.prefix_refl _)
  obtain ⟨graph, hgraph, hget, -⟩ := hkept.nested ("execution_id", "e") (by decide +kernel)
  have hlost : (Val.getIn "execution_id" (graphOf ((attaching fun _ => "0").run ⟨[], []⟩
      [Val.dict [("goal_id", .str "g"), ("execution_id", .str "e")],
        .dict [("goal_id", .str "g")]]).record)).truthy = false := by
    decide +kernel
  unfold graphOf at hlost
  rw [hgraph] at hlost
  dsimp only at hlost
  rw [hget] at hlost
  exact absurd hlost (by decide)

end WriteOnce
end Goals
end ZeroRuntime
