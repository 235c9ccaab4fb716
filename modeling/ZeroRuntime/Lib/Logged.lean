import ZeroRuntime.Lib.Value

/-!
# ZeroRuntime.Lib.Logged

Programs that log what they write, one entry after the other, and may raise: what was written stays
written.

* `Logged ω α`: the entries written and the answer.
* `result_bind`, `mem_writes_bind`: a sequence taken apart.
* `Writes P m`: every entry written has `P`.
* `Along T log m Q R`: after the log `log`, the log has `T` at every moment of the run of `m`, and at
  its end `Q` if `m` answers, `R` if it raises. The rules follow the syntax of programs.
-/

namespace ZeroRuntime
namespace Lib

structure Logged (ω α : Type) where
  writes : List ω
  result : Except Err α

namespace Logged

variable {ω α β : Type}

def bind (m : Logged ω α) (f : α → Logged ω β) : Logged ω β :=
  match m.result with
  | .ok a => ⟨m.writes ++ (f a).writes, (f a).result⟩
  | .error e => ⟨m.writes, .error e⟩

instance : Monad (Logged ω) where
  pure a := ⟨[], .ok a⟩
  bind := bind

def write (w : ω) : Logged ω Unit := ⟨[w], .ok ()⟩

def raise (e : Err) : Logged ω α := ⟨[], .error e⟩

def ofExcept (x : Except Err α) : Logged ω α := ⟨[], x⟩

/-! ## What is answered and written -/

@[simp] theorem result_pure (a : α) : (pure a : Logged ω α).result = .ok a := rfl

@[simp] theorem writes_pure (a : α) : (pure a : Logged ω α).writes = [] := rfl

@[simp] theorem result_write (w : ω) : (write w).result = .ok () := rfl

@[simp] theorem writes_write (w : ω) : (write w).writes = [w] := rfl

@[simp] theorem result_raise (e : Err) : (raise e : Logged ω α).result = .error e := rfl

@[simp] theorem writes_raise (e : Err) : (raise e : Logged ω α).writes = [] := rfl

@[simp] theorem result_ofExcept (x : Except Err α) : (ofExcept x : Logged ω α).result = x := rfl

@[simp] theorem writes_ofExcept (x : Except Err α) : (ofExcept x : Logged ω α).writes = [] := rfl

variable {m : Logged ω α}

theorem bind_of_ok {a : α} (h : m.result = .ok a) (f : α → Logged ω β) :
    m >>= f = ⟨m.writes ++ (f a).writes, (f a).result⟩ := by
  change bind m f = _
  unfold bind
  rw [h]

theorem bind_of_error {e : Err} (h : m.result = .error e) (f : α → Logged ω β) :
    m >>= f = ⟨m.writes, .error e⟩ := by
  change bind m f = _
  unfold bind
  rw [h]

variable {f : α → Logged ω β}

theorem result_bind {b : β} :
    (m >>= f).result = .ok b ↔ ∃ a, m.result = .ok a ∧ (f a).result = .ok b := by
  cases h : m.result with
  | error e => simp [bind_of_error h]
  | ok a => simp [bind_of_ok h]

theorem mem_writes_bind {w : ω} :
    w ∈ (m >>= f).writes ↔ w ∈ m.writes ∨ ∃ a, m.result = .ok a ∧ w ∈ (f a).writes := by
  cases h : m.result with
  | error e => simp [bind_of_error h]
  | ok a => simp [bind_of_ok h]

theorem ofExcept_bind_ok (a : α) (f : α → Logged ω β) : ofExcept (.ok a) >>= f = f a := rfl

/-- Every write has `P`. -/
def Writes (P : ω → Prop) (m : Logged ω α) : Prop := ∀ w ∈ m.writes, P w

namespace Writes

variable {P : ω → Prop}

theorem pure (a : α) : Writes P (Pure.pure a : Logged ω α) := fun _ h => absurd h List.not_mem_nil

theorem raise (e : Err) : Writes P (Logged.raise e : Logged ω α) :=
  fun _ h => absurd h List.not_mem_nil

theorem ofExcept (x : Except Err α) : Writes P (Logged.ofExcept x : Logged ω α) :=
  fun _ h => absurd h List.not_mem_nil

theorem bind {m : Logged ω α} {f : α → Logged ω β} (hm : Writes P m)
    (hf : ∀ a, m.result = .ok a → Writes P (f a)) : Writes P (m >>= f) := by
  intro w hw
  rcases mem_writes_bind.mp hw with hw | ⟨a, ha, hw⟩
  · exact hm w hw
  · exact hf a ha w hw

end Writes

/-! ## The log at every moment -/

structure Along (T : List ω → Prop) (log : List ω) (m : Logged ω α) (Q : α → List ω → Prop)
    (R : List ω → Prop) : Prop where
  along : ∀ part, part <+: m.writes → T (log ++ part)
  done : ∀ a, m.result = .ok a → Q a (log ++ m.writes)
  raised : ∀ e, m.result = .error e → R (log ++ m.writes)

namespace Along

variable {T : List ω → Prop} {log : List ω} {Q : α → List ω → Prop} {R : List ω → Prop}

variable {m : Logged ω α}

/-- The log when the program ends. -/
theorem last (h : Along T log m Q R) : T (log ++ m.writes) :=
  h.along m.writes List.prefix_rfl

theorem unwritten (hT : T log) {part : List ω} (hpart : part <+: []) : T (log ++ part) := by
  rw [List.prefix_nil.mp hpart, List.append_nil]
  exact hT

theorem pure {a : α} (hT : T log) (hQ : Q a log) : Along T log (Pure.pure a) Q R := by
  refine ⟨fun _ hpart => unwritten hT hpart, fun a' ha' => ?_, fun e he => by cases he⟩
  cases ha'
  rw [writes_pure, List.append_nil]
  exact hQ

theorem raise {e : Err} (hT : T log) (hR : R log) : Along T log (Logged.raise e) Q R := by
  refine ⟨fun _ hpart => unwritten hT hpart, (fun a ha => by cases ha), fun e' he' => ?_⟩
  rw [writes_raise, List.append_nil]
  exact hR

theorem ofExcept {x : Except Err α} (hT : T log) (hQ : ∀ a, x = .ok a → Q a log)
    (hR : ∀ e, x = .error e → R log) : Along T log (Logged.ofExcept x) Q R := by
  refine ⟨fun _ hpart => unwritten hT hpart, fun a ha => ?_, fun e he => ?_⟩
  · rw [writes_ofExcept, List.append_nil]
    exact hQ a ha
  · rw [writes_ofExcept, List.append_nil]
    exact hR e he

theorem write {w : ω} {Q : Unit → List ω → Prop} (hT : T log) (hw : T (log ++ [w]))
    (hQ : Q () (log ++ [w])) : Along T log (Logged.write w) Q R := by
  refine ⟨fun part hpart => ?_, fun _ _ => hQ, fun e he => by cases he⟩
  rcases List.prefix_cons_iff.mp hpart with rfl | ⟨rest, rfl, hrest⟩
  · rw [List.append_nil]
    exact hT
  · rw [List.prefix_nil.mp hrest]
    exact hw

theorem bind {f : α → Logged ω β} {S : α → List ω → Prop} {Q : β → List ω → Prop}
    (hm : Along T log m S R) (hf : ∀ a log', T log' → S a log' → Along T log' (f a) Q R) :
    Along T log (m >>= f) Q R := by
  cases hresult : m.result with
  | error e =>
    rw [bind_of_error hresult]
    exact ⟨hm.along, (fun b hb => by cases hb), fun _ _ => hm.raised e hresult⟩
  | ok a =>
    have hrest := hf a (log ++ m.writes) hm.last (hm.done a hresult)
    rw [bind_of_ok hresult]
    refine ⟨fun part hpart => ?_, fun b hb => ?_, fun e he => ?_⟩
    · rcases List.prefix_or_prefix_of_prefix hpart (List.prefix_append m.writes (f a).writes) with
        hfirst | ⟨rest, rfl⟩
      · exact hm.along part hfirst
      · rw [← List.append_assoc]
        exact hrest.along rest ((List.prefix_append_right_inj m.writes).mp hpart)
    · rw [← List.append_assoc]
      exact hrest.done b hb
    · rw [← List.append_assoc]
      exact hrest.raised e he

theorem conseq {Q' : α → List ω → Prop} {R' : List ω → Prop} (h : Along T log m Q R)
    (hQ : ∀ a log', Q a log' → Q' a log') (hR : ∀ log', R log' → R' log') : Along T log m Q' R' :=
  ⟨h.along, fun a ha => hQ a _ (h.done a ha), fun e he => hR _ (h.raised e he)⟩

end Along

end Logged
end Lib
end ZeroRuntime
