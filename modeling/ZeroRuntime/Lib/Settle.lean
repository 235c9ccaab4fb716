import ZeroRuntime.Lib.Value

/-!
# ZeroRuntime.Lib.Settle

Folds that do nothing the second time. An input is settled in a state when taking it again leaves
the state as it is; if every input is settled once it has been taken, and stays settled while others
are taken, then so are all of them after the fold.
-/

namespace ZeroRuntime
namespace Lib

section Settle

variable {ε α β : Type} {f : β → α → Except ε β} {Settled : α → β → Prop}

theorem foldlM_settled {as : List α}
    (hself : ∀ a ∈ as, ∀ {b b'}, f b a = .ok b' → Settled a b')
    (hkeep : ∀ {b b' a x}, Settled x b → f b a = .ok b' → Settled x b')
    {b b' : β} (h : as.foldlM f b = .ok b') :
    (∀ a ∈ as, Settled a b') ∧ ∀ x, Settled x b → Settled x b' := by
  induction as generalizing b with
  | nil =>
    cases h
    exact ⟨fun a ha => (by cases ha), fun x hx => hx⟩
  | cons a as ih =>
    rw [List.foldlM_cons, bind_eq_ok] at h
    obtain ⟨c, hc, h⟩ := h
    obtain ⟨hall, hstay⟩ := ih (fun x hx => hself x (List.mem_cons_of_mem a hx)) h
    refine ⟨fun x hx => ?_, fun x hx => hstay x (hkeep hx hc)⟩
    rcases List.mem_cons.mp hx with rfl | hx
    · exact hstay x (hself x List.mem_cons_self hc)
    · exact hall x hx

/-- Settled inputs change nothing of what `g` reads. -/
theorem foldlM_again {γ : Type} {g : β → γ}
    (hagain : ∀ {b a}, Settled a b → ∃ b', f b a = .ok b' ∧ g b' = g b)
    (hsame : ∀ {b b' x}, g b' = g b → Settled x b → Settled x b')
    {as : List α} {b : β} (h : ∀ a ∈ as, Settled a b) :
    ∃ b', as.foldlM f b = .ok b' ∧ g b' = g b := by
  induction as generalizing b with
  | nil => exact ⟨b, rfl, rfl⟩
  | cons a as ih =>
    obtain ⟨c, hc, hnext⟩ := hagain (h a List.mem_cons_self)
    obtain ⟨b', hb', hrest⟩ := ih fun x hx => hsame hnext (h x (List.mem_cons_of_mem a hx))
    refine ⟨b', ?_, hrest.trans hnext⟩
    rw [List.foldlM_cons, hc]
    exact hb'

end Settle

end Lib
end ZeroRuntime
