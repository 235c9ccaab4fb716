import Mathlib.Data.Nat.Notation
import ZeroRuntime.Lib.Value

/-!
# ZeroRuntime.Lib.Effect

Programs that work on a state through single operations, each of which may fail or be the last one
before the process stops.

* `Eff σ α`: a program over states `σ`. `op` is one operation; a plan gives each operation, by its
  number, its `Fate`. An operation that fails raises and changes nothing.
* `attempt` catches what is raised, and nothing else. `inspect` and `assign` read and set what the
  program itself holds, `onSecond` runs a program on one part of the state.
* `Triple plan P m Q`: from a state with `P` the run of `m` ends as `Q` says, which has one
  assertion for each way to end. The rules follow the syntax of programs.
* `Keeps I m`: every run of `m`, however it ends, keeps `I`.
-/

namespace ZeroRuntime
namespace Lib

inductive Fate where
  | ok | fail | crash
deriving DecidableEq, Repr

abbrev Plan := ℕ → Fate

/-- How a program ends. -/
inductive Out (α : Type) where
  | done (a : α)
  | raised (e : Err)
  | crashed

/-- A program takes the plan, the number of operations so far, and the state. -/
def Eff (σ α : Type) : Type := Plan → ℕ × σ → Out α × (ℕ × σ)

namespace Eff

variable {σ α β : Type}

def pure (a : α) : Eff σ α := fun _ c => (.done a, c)

def bind (m : Eff σ α) (f : α → Eff σ β) : Eff σ β := fun plan c =>
  match m plan c with
  | (.done a, c) => f a plan c
  | (.raised e, c) => (.raised e, c)
  | (.crashed, c) => (.crashed, c)

instance : Monad (Eff σ) where
  pure := pure
  bind := bind

/-- One operation: it answers and changes the state, or raises. -/
def op (f : σ → Except Err (α × σ)) : Eff σ α := fun plan c =>
  match plan c.1 with
  | .crash => (.crashed, c)
  | .fail => (.raised .osError, (c.1 + 1, c.2))
  | .ok =>
    match f c.2 with
    | .ok (a, s) => (.done a, (c.1 + 1, s))
    | .error e => (.raised e, (c.1 + 1, c.2))

/-- An operation that only reads. -/
def query (f : σ → Except Err α) : Eff σ α := op fun s => (f s).map fun a => (a, s)

/-- An operation that only writes. -/
def modify (f : σ → Except Err σ) : Eff σ Unit := op fun s => (f s).map fun s' => ((), s')

def raise (e : Err) : Eff σ α := fun _ c => (.raised e, c)

/-- Reading what the program itself holds: no operation, and it cannot fail. -/
def inspect (f : σ → α) : Eff σ α := fun _ c => (.done (f c.2), c)

/-- Setting what the program itself holds. -/
def assign (f : σ → σ) : Eff σ Unit := fun _ c => (.done (), (c.1, f c.2))

/-- A program on the second part of the state. -/
def onSecond {τ : Type} (m : Eff τ α) : Eff (σ × τ) α := fun plan c =>
  match m plan (c.1, c.2.2) with
  | (out, c') => (out, (c'.1, (c.2.1, c'.2)))

def ofExcept : Except Err α → Eff σ α
  | .ok a => pure a
  | .error e => raise e

/-- `try: … except Exception: …`, as the answer or what was raised. -/
def attempt (m : Eff σ α) : Eff σ (Except Err α) := fun plan c =>
  match m plan c with
  | (.done a, c) => (.done (.ok a), c)
  | (.raised e, c) => (.done (.error e), c)
  | (.crashed, c) => (.crashed, c)

end Eff

namespace Eff

variable {σ α β γ : Type}

theorem bind_assoc (m : Eff σ α) (f : α → Eff σ β) (g : β → Eff σ γ) :
    (m >>= f) >>= g = m >>= fun a => f a >>= g := by
  funext plan c
  change Eff.bind (Eff.bind m f) g plan c = Eff.bind m (fun a => Eff.bind (f a) g) plan c
  unfold Eff.bind
  cases m plan c with
  | mk out c₁ => cases out <;> rfl

theorem bind_of_done {m : Eff σ α} {f : α → Eff σ β} {plan : Plan} {c c₁ : ℕ × σ} {a : α}
    (h : m plan c = (.done a, c₁)) : (m >>= f) plan c = f a plan c₁ := by
  change Eff.bind m f plan c = _
  unfold Eff.bind
  rw [h]

end Eff

/-! ## Triples -/

/-- What holds at each way to end. -/
structure Post (σ α : Type) where
  done : α → σ → Prop
  raised : σ → Prop
  crashed : σ → Prop

namespace Post

variable {σ α : Type}

def holds (Q : Post σ α) : Out α × (ℕ × σ) → Prop
  | (.done a, c) => Q.done a c.2
  | (.raised _, c) => Q.raised c.2
  | (.crashed, c) => Q.crashed c.2

/-- The same assertion at every end. -/
def always (I : σ → Prop) : Post σ α := ⟨fun _ => I, I, I⟩

/-- Only runs that come to an answer matter. -/
def answers (R : α → σ → Prop) : Post σ α := ⟨R, fun _ => True, fun _ => True⟩

/-- The run comes to an answer. -/
def total (R : α → σ → Prop) : Post σ α := ⟨R, fun _ => False, fun _ => False⟩

end Post

def Triple {σ α : Type} (plan : Plan) (P : σ → Prop) (m : Eff σ α) (Q : Post σ α) : Prop :=
  ∀ n s, P s → Q.holds (m plan (n, s))

namespace Triple

variable {σ α β : Type} {plan : Plan} {P P' : σ → Prop} {Q Q' : Post σ α}

theorem pure {a : α} (h : ∀ s, P s → Q.done a s) : Triple plan P (Pure.pure a : Eff σ α) Q :=
  fun _ s hs => h s hs

theorem raise {e : Err} (h : ∀ s, P s → Q.raised s) : Triple plan P (Eff.raise e : Eff σ α) Q :=
  fun _ s hs => h s hs

theorem ofExcept {x : Except Err α} (hok : ∀ a, x = .ok a → ∀ s, P s → Q.done a s)
    (herr : ∀ s, P s → Q.raised s) : Triple plan P (Eff.ofExcept x) Q := by
  intro n s hs
  cases x with
  | ok a => exact hok a rfl s hs
  | error e => exact herr s hs

variable {m : Eff σ α} {R : α → σ → Prop}

theorem bind {f : α → Eff σ β} {Q : Post σ β} (hm : Triple plan P m ⟨R, Q.raised, Q.crashed⟩)
    (hf : ∀ a, Triple plan (R a) (f a) Q) : Triple plan P (m >>= f) Q := by
  intro n s hs
  have h := hm n s hs
  change Q.holds (Eff.bind m f plan (n, s))
  unfold Eff.bind
  cases hrun : m plan (n, s) with
  | mk out c =>
    rw [hrun] at h
    cases out with
    | done a => exact hf a c.1 c.2 h
    | raised e => exact h
    | crashed => exact h

variable {f : σ → Except Err (α × σ)}

theorem op (hraised : ∀ s, P s → Q.raised s) (hcrashed : ∀ s, P s → Q.crashed s)
    (hdone : ∀ s a s', P s → f s = .ok (a, s') → Q.done a s') : Triple plan P (Eff.op f) Q := by
  intro n s hs
  unfold Eff.op
  simp only
  split
  · exact hcrashed s hs
  · exact hraised s hs
  · split
    · rename_i a s' hf
      exact hdone s a s' hs hf
    · exact hraised s hs

theorem query {f : σ → Except Err α} (hraised : ∀ s, P s → Q.raised s)
    (hcrashed : ∀ s, P s → Q.crashed s) (hdone : ∀ s a, P s → f s = .ok a → Q.done a s) :
    Triple plan P (Eff.query f) Q := by
  refine op hraised hcrashed ?_
  intro s a s' hs hf
  cases hfs : f s with
  | error e =>
    rw [hfs] at hf
    cases hf
  | ok a' =>
    rw [hfs] at hf
    cases hf
    exact hdone s a hs hfs

theorem modify {f : σ → Except Err σ} {Q : Post σ Unit} (hraised : ∀ s, P s → Q.raised s)
    (hcrashed : ∀ s, P s → Q.crashed s) (hdone : ∀ s s', P s → f s = .ok s' → Q.done () s') :
    Triple plan P (Eff.modify f) Q := by
  refine op hraised hcrashed ?_
  intro s a s' hs hf
  cases hfs : f s with
  | error e =>
    rw [hfs] at hf
    cases hf
  | ok s'' =>
    rw [hfs] at hf
    cases hf
    exact hdone s s' hs hfs

theorem attempt {Q : Post σ (Except Err α)}
    (h : Triple plan P m ⟨fun a => Q.done (.ok a), fun s => ∀ e, Q.done (.error e) s, Q.crashed⟩) :
    Triple plan P (Eff.attempt m) Q := by
  intro n s hs
  have hm := h n s hs
  unfold Eff.attempt
  cases hrun : m plan (n, s) with
  | mk out c =>
    rw [hrun] at hm
    cases out with
    | done a => exact hm
    | raised e => exact hm e
    | crashed => exact hm

theorem conseq (h : Triple plan P m Q) (hP : ∀ s, P' s → P s)
    (hdone : ∀ a s, Q.done a s → Q'.done a s) (hraised : ∀ s, Q.raised s → Q'.raised s)
    (hcrashed : ∀ s, Q.crashed s → Q'.crashed s) : Triple plan P' m Q' := by
  intro n s hs
  have hm := h n s (hP s hs)
  cases hrun : m plan (n, s) with
  | mk out c =>
    rw [hrun] at hm
    cases out with
    | done a => exact hdone a c.2 hm
    | raised e => exact hraised c.2 hm
    | crashed => exact hcrashed c.2 hm

theorem inspect {f : σ → α} (h : ∀ s, P s → Q.done (f s) s) : Triple plan P (Eff.inspect f) Q :=
  fun _ s hs => h s hs

theorem assign {f : σ → σ} {Q : Post σ Unit} (h : ∀ s, P s → Q.done () (f s)) :
    Triple plan P (Eff.assign f) Q :=
  fun _ s hs => h s hs

theorem onSecond {τ : Type} {m : Eff τ α} {P : τ → Prop} {P' : σ × τ → Prop} {Q : Post τ α}
    {Q' : Post (σ × τ) α} (a : σ) (h : Triple plan P m Q) (hP : ∀ s, P' s → s.1 = a ∧ P s.2)
    (hdone : ∀ x t, Q.done x t → Q'.done x (a, t)) (hraised : ∀ t, Q.raised t → Q'.raised (a, t))
    (hcrashed : ∀ t, Q.crashed t → Q'.crashed (a, t)) : Triple plan P' (Eff.onSecond m) Q' := by
  intro n s hs
  obtain ⟨rfl, hs⟩ := hP s hs
  have hm := h n s.2 hs
  unfold Eff.onSecond
  cases hrun : m plan (n, s.2) with
  | mk out c =>
    rw [hrun] at hm
    cases out with
    | done x => exact hdone x c.2 hm
    | raised e => exact hraised c.2 hm
    | crashed => exact hcrashed c.2 hm

/-- An operation that nothing keeps from going through. -/
theorem op_ok (hplan : ∀ n, plan n = .ok) (h : ∀ s, P s → ∃ a s', f s = .ok (a, s') ∧ Q.done a s') :
    Triple plan P (Eff.op f) Q := by
  intro n s hs
  obtain ⟨a, s', hf, hdone⟩ := h s hs
  unfold Eff.op
  simp only [hplan n, hf]
  exact hdone

theorem trivial (plan : Plan) (P : σ → Prop) (m : Eff σ α) :
    Triple plan P m (Post.answers fun _ _ => True) := by
  intro n s _
  cases m plan (n, s) with
  | mk out c => cases out <;> exact True.intro

theorem of_done (h : Triple plan P m (Post.answers R)) {n : ℕ} {s : σ} {a : α} {c : ℕ × σ}
    (hs : P s) (hrun : m plan (n, s) = (.done a, c)) : R a c.2 := by
  have hm := h n s hs
  rw [hrun] at hm
  exact hm

theorem exists_done (h : Triple plan P m (Post.total R)) (n : ℕ) {s : σ} (hs : P s) :
    ∃ a c, m plan (n, s) = (.done a, c) ∧ R a c.2 := by
  have hm := h n s hs
  cases hrun : m plan (n, s) with
  | mk out c =>
    rw [hrun] at hm
    cases out with
    | done a => exact ⟨a, c, rfl, hm⟩
    | raised e => exact hm.elim
    | crashed => exact hm.elim

theorem attempt_total (h : Triple plan P m (Post.total R)) :
    Triple plan P (Eff.attempt m) (Post.total fun outcome s => ∃ a, outcome = .ok a ∧ R a s) :=
  attempt (h.conseq (fun _ hs => hs) (fun a _ hs => ⟨a, rfl, hs⟩) (fun _ hs => hs.elim)
    fun _ hs => hs)

/-- A hypothesis about the state that the program starts in may be used in the proof. -/
theorem intro (h : ∀ s₀, P s₀ → Triple plan (fun s => s = s₀) m Q) : Triple plan P m Q :=
  fun n s hs => h s hs n s rfl

end Triple

/-! ## Invariants -/

/-- Every run of the program, however it ends, keeps `I`. -/
def Keeps {σ α : Type} (I : σ → Prop) (m : Eff σ α) : Prop :=
  ∀ plan, Triple plan I m (Post.always I)

namespace Keeps

variable {σ α β : Type} {I : σ → Prop}

theorem pure (a : α) : Keeps I (Pure.pure a : Eff σ α) := fun _ => Triple.pure fun _ hs => hs

theorem raise (e : Err) : Keeps I (Eff.raise e : Eff σ α) := fun _ => Triple.raise fun _ hs => hs

theorem ofExcept (x : Except Err α) : Keeps I (Eff.ofExcept x : Eff σ α) :=
  fun _ => Triple.ofExcept (fun _ _ _ hs => hs) fun _ hs => hs

variable {m : Eff σ α}

theorem bind {f : α → Eff σ β} (hm : Keeps I m) (hf : ∀ a, Keeps I (f a)) : Keeps I (m >>= f) :=
  fun plan => Triple.bind (hm plan) fun a => hf a plan

theorem query (f : σ → Except Err α) : Keeps I (Eff.query f) :=
  fun _ => Triple.query (fun _ hs => hs) (fun _ hs => hs) fun _ _ hs _ => hs

theorem modify {f : σ → Except Err σ} (h : ∀ s s', I s → f s = .ok s' → I s') :
    Keeps I (Eff.modify f) :=
  fun _ => Triple.modify (fun _ hs => hs) (fun _ hs => hs) h

theorem attempt (h : Keeps I m) : Keeps I (Eff.attempt m) :=
  fun plan => Triple.attempt ((h plan).conseq (fun _ hs => hs) (fun _ _ hs => hs)
    (fun _ hs _ => hs) fun _ hs => hs)

theorem ite {c : Prop} [Decidable c] {m' : Eff σ α} (h : Keeps I m) (h' : Keeps I m') :
    Keeps I (if c then m else m') := by
  split
  · exact h
  · exact h'

theorem inspect (f : σ → α) : Keeps I (Eff.inspect f) := fun _ => Triple.inspect fun _ hs => hs

theorem assign {f : σ → σ} (h : ∀ s, I s → I (f s)) : Keeps I (Eff.assign f) :=
  fun _ => Triple.assign h

theorem onSecond {τ : Type} {I : σ × τ → Prop} {m : Eff τ α}
    (h : ∀ a, Keeps (fun t => I (a, t)) m) : Keeps I (Eff.onSecond m) :=
  fun plan => Triple.intro fun s₀ hs₀ => Triple.onSecond s₀.1 (h s₀.1 plan)
    (by rintro s rfl; exact ⟨rfl, hs₀⟩) (fun _ _ ht => ht) (fun _ ht => ht) fun _ ht => ht

theorem answers (h : Keeps I m) (plan : Plan) : Triple plan I m (Post.answers fun _ => I) :=
  (h plan).conseq (fun _ hs => hs) (fun _ _ hs => hs) (fun _ _ => True.intro)
    fun _ _ => True.intro

/-- An invariant under a condition that no run changes. -/
theorem imp {p : Prop} (h : p → Keeps I m) : Keeps (fun s => p → I s) m := by
  intro plan n s hs
  by_cases hp : p
  · have hrun := h hp plan n s (hs hp)
    cases hm : m plan (n, s) with
    | mk out c =>
      rw [hm] at hrun
      cases out with
      | done a => exact fun _ => hrun
      | raised e => exact fun _ => hrun
      | crashed => exact fun _ => hrun
  · cases hm : m plan (n, s) with
    | mk out c =>
      cases out with
      | done a => exact fun h => absurd h hp
      | raised e => exact fun h => absurd h hp
      | crashed => exact fun h => absurd h hp

end Keeps

end Lib
end ZeroRuntime
