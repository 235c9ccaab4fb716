import Mathlib.Data.List.Induction

/-!
# ZeroRuntime.Lib.Machine

Deterministic systems that take inputs one at a time: `run` is the state after a list of inputs,
`outputs` pairs every input with its answer, and `Guarded ok s is` says that each input of `is`
meets `ok` in the state it is taken from.

Invariants are proved once per step and lifted to whole runs with `Guarded.invariant`;
`Guarded.snoc` opens a run at its last input, which is how a fact about one call in the middle of
a run is stated: every prefix of a guarded run is a guarded run.
-/

namespace ZeroRuntime
namespace Lib

/-- A system with states `σ`, inputs `ι` and answers `ο`. -/
structure Machine (σ ι ο : Type) where
  step : σ → ι → ο × σ

namespace Machine

variable {σ ι ο : Type} (M : Machine σ ι ο)

/-- The state after a list of inputs. -/
def run (s : σ) : List ι → σ
  | [] => s
  | i :: is => run (M.step s i).2 is

/-- The inputs with the answers they get, in order. -/
def outputs (s : σ) : List ι → List (ι × ο)
  | [] => []
  | i :: is => (i, (M.step s i).1) :: outputs (M.step s i).2 is

/-- Every input meets `ok` in the state it is taken from. -/
def Guarded (ok : σ → ι → Prop) (s : σ) : List ι → Prop
  | [] => True
  | i :: is => ok s i ∧ Guarded ok (M.step s i).2 is

instance decidableGuarded (ok : σ → ι → Prop) [∀ s i, Decidable (ok s i)] (s : σ) :
    (is : List ι) → Decidable (M.Guarded ok s is)
  | [] => .isTrue trivial
  | i :: is =>
    haveI := decidableGuarded ok (M.step s i).2 is
    inferInstanceAs (Decidable (ok s i ∧ M.Guarded ok (M.step s i).2 is))

variable {M}

theorem run_append (s : σ) (is js : List ι) : M.run s (is ++ js) = M.run (M.run s is) js := by
  induction is generalizing s with
  | nil => rfl
  | cons i is ih => exact ih (M.step s i).2

theorem run_snoc (s : σ) (is : List ι) (i : ι) :
    M.run s (is ++ [i]) = (M.step (M.run s is) i).2 := by
  rw [run_append]; rfl

theorem outputs_append (s : σ) (is js : List ι) :
    M.outputs s (is ++ js) = M.outputs s is ++ M.outputs (M.run s is) js := by
  induction is generalizing s with
  | nil => rfl
  | cons i is ih => simp only [List.cons_append, outputs, run, ih]

theorem outputs_snoc (s : σ) (is : List ι) (i : ι) :
    M.outputs s (is ++ [i]) = M.outputs s is ++ [(i, (M.step (M.run s is) i).1)] := by
  rw [outputs_append]; rfl

variable {ok : σ → ι → Prop} {s : σ} {is : List ι}

theorem guarded_append {js : List ι} :
    M.Guarded ok s (is ++ js) ↔ M.Guarded ok s is ∧ M.Guarded ok (M.run s is) js := by
  induction is generalizing s with
  | nil => simp [Guarded, run]
  | cons i is ih => simp only [List.cons_append, Guarded, run, ih, and_assoc]

variable {ok' : σ → ι → Prop}

theorem guarded_congr (h : ∀ s i, ok s i ↔ ok' s i) : M.Guarded ok s is ↔ M.Guarded ok' s is := by
  induction is generalizing s with
  | nil => exact Iff.rfl
  | cons i is ih => exact and_congr (h s i) ih

/-- A guarded run, opened at its last input. -/
theorem Guarded.snoc {i : ι} (h : M.Guarded ok s (is ++ [i])) :
    M.Guarded ok s is ∧ ok (M.run s is) i := by
  obtain ⟨his, hi, -⟩ := guarded_append.mp h
  exact ⟨his, hi⟩

/-- A run is guarded if each of its inputs meets the condition after those before it. -/
theorem guarded_iff_prefix :
    M.Guarded ok s is ↔ ∀ before i, before ++ [i] <+: is → ok (M.run s before) i := by
  induction is generalizing s with
  | nil =>
    refine ⟨fun _ before i h => ?_, fun _ => trivial⟩
    exact absurd (List.prefix_nil.mp h) (List.append_ne_nil_of_right_ne_nil _ (List.cons_ne_nil i []))
  | cons j is ih =>
    constructor
    · rintro ⟨hj, his⟩ before i h
      cases before with
      | nil =>
        obtain ⟨rfl, -⟩ := List.cons_prefix_cons.mp h
        exact hj
      | cons k before =>
        obtain ⟨rfl, h'⟩ := List.cons_prefix_cons.mp h
        exact ih.mp his before i h'
    · intro h
      refine ⟨h [] j (List.cons_prefix_cons.mpr ⟨rfl, List.nil_prefix⟩), ih.mpr fun before i hpre => ?_⟩
      exact h (j :: before) i (List.cons_prefix_cons.mpr ⟨rfl, hpre⟩)

/-- An invariant that every guarded step keeps holds after every guarded run. -/
theorem Guarded.invariant {ok : σ → ι → Prop} {Inv : σ → Prop}
    (hstep : ∀ s i, Inv s → ok s i → Inv (M.step s i).2) {s : σ} {is : List ι}
    (h : M.Guarded ok s is) (hs : Inv s) : Inv (M.run s is) := by
  induction is generalizing s with
  | nil => exact hs
  | cons i is ih => exact ih h.2 (hstep s i hs h.1)

/-- What a step with the invariant shows holds at every step of a guarded run. -/
theorem Guarded.of_invariant {ok good : σ → ι → Prop} {Inv : σ → Prop}
    (hstep : ∀ s i, Inv s → ok s i → good s i ∧ Inv (M.step s i).2) {s : σ} {is : List ι}
    (h : M.Guarded ok s is) (hs : Inv s) : M.Guarded good s is := by
  induction is generalizing s with
  | nil => trivial
  | cons i is ih =>
    obtain ⟨hgood, hnext⟩ := hstep s i hs h.1
    exact ⟨hgood, ih h.2 hnext⟩

/-- Where two conditions on a step are the same as long as the invariant holds, and the invariant
is kept by the steps that meet them, they are the same of runs. -/
theorem guarded_iff_of_invariant {Inv : σ → Prop} (hiff : ∀ s i, Inv s → (ok s i ↔ ok' s i))
    (hstep : ∀ s i, Inv s → ok s i → Inv (M.step s i).2) (hs : Inv s) :
    M.Guarded ok s is ↔ M.Guarded ok' s is := by
  induction is generalizing s with
  | nil => exact Iff.rfl
  | cons i is ih =>
    constructor
    · rintro ⟨hi, his⟩
      exact ⟨(hiff s i hs).mp hi, (ih (hstep s i hs hi)).mp his⟩
    · rintro ⟨hi, his⟩
      have hok := (hiff s i hs).mpr hi
      exact ⟨hok, (ih (hstep s i hs hok)).mpr his⟩

/-- In a guarded run, two conditions that are the same as long as the invariant holds are the same
of the whole run. -/
theorem Guarded.iff_of_invariant {ok good good' : σ → ι → Prop} {Inv : σ → Prop}
    (hstep : ∀ s i, Inv s → ok s i → (good s i ↔ good' s i) ∧ Inv (M.step s i).2) {s : σ}
    {is : List ι} (h : M.Guarded ok s is) (hs : Inv s) :
    M.Guarded good s is ↔ M.Guarded good' s is := by
  induction is generalizing s with
  | nil => exact Iff.rfl
  | cons i is ih =>
    obtain ⟨hiff, hnext⟩ := hstep s i hs h.1
    exact and_congr hiff (ih h.2 hnext)

/-- An invariant that every step keeps holds after every run. -/
theorem run_invariant {Inv : σ → Prop} (hstep : ∀ s i, Inv s → Inv (M.step s i).2) {s : σ}
    (is : List ι) (hs : Inv s) : Inv (M.run s is) := by
  induction is generalizing s with
  | nil => exact hs
  | cons i is ih => exact ih (hstep s i hs)

/-- What does not hold at the start and does after a run came about at one of its inputs. -/
theorem run_origin {P : σ → Prop} (hs : ¬P s) (h : P (M.run s is)) :
    ∃ before i, before ++ [i] <+: is ∧ ¬P (M.run s before) ∧ P (M.step (M.run s before) i).2 := by
  induction is using List.reverseRecOn with
  | nil => exact absurd h hs
  | append_singleton is i ih =>
    by_cases hbefore : P (M.run s is)
    · obtain ⟨before, j, hpre, hfirst⟩ := ih hbefore
      exact ⟨before, j, hpre.trans (List.prefix_append is [i]), hfirst⟩
    · rw [run_snoc] at h
      exact ⟨is, i, List.prefix_refl _, hbefore, h⟩

/-- Where a step keeps `Good` if and only if it meets the condition, a run is guarded if and only if
`Good` holds in every state it reaches. -/
theorem guarded_iff_always {Good Inv : σ → Prop} (hstep : ∀ s i, Inv s → Inv (M.step s i).2)
    (hiff : ∀ s i, Inv s → Good s → (ok s i ↔ Good (M.step s i).2)) (hs : Inv s) (hgood : Good s) :
    M.Guarded ok s is ↔ ∀ before, before <+: is → Good (M.run s before) := by
  induction is generalizing s with
  | nil =>
    refine ⟨fun _ before h => ?_, fun _ => trivial⟩
    rw [List.prefix_nil.mp h]
    exact hgood
  | cons i is ih =>
    constructor
    · rintro ⟨hi, his⟩ before h
      cases before with
      | nil => exact hgood
      | cons j before =>
        obtain ⟨rfl, hbefore⟩ := List.cons_prefix_cons.mp h
        exact (ih (hstep s j hs) ((hiff s j hs hgood).mp hi)).mp his before hbefore
    · intro h
      have hnext : Good (M.step s i).2 := h [i] (List.cons_prefix_cons.mpr ⟨rfl, List.nil_prefix⟩)
      refine ⟨(hiff s i hs hgood).mpr hnext, (ih (hstep s i hs) hnext).mpr fun before hbefore => ?_⟩
      exact h (i :: before) (List.cons_prefix_cons.mpr ⟨rfl, hbefore⟩)

/-- The same for an invariant that also speaks about the answers given so far. -/
theorem Guarded.invariant_outputs {Inv : List (ι × ο) → σ → Prop}
    (hstep : ∀ h s i, Inv h s → ok s i → Inv (h ++ [(i, (M.step s i).1)]) (M.step s i).2)
    (hg : M.Guarded ok s is) (hs : Inv [] s) : Inv (M.outputs s is) (M.run s is) := by
  induction is using List.reverseRecOn with
  | nil => exact hs
  | append_singleton is i ih =>
    obtain ⟨his, hi⟩ := hg.snoc
    rw [outputs_snoc, run_snoc]
    exact hstep _ _ _ (ih his) hi

end Machine
end Lib
end ZeroRuntime
