import ZeroRuntime.Lib.Value

/-!
# ZeroRuntime.Lib.Touched

Frame conditions on mappings: `Touched keys r r'` says that `r'` differs from `r` at the keys of a
list at most. A computation that may raise and writes one key after the other touches what its
steps touch.
-/

namespace ZeroRuntime
namespace Lib

/-- A fold that may raise relates what it starts with and what it ends with, if its steps do. -/
theorem foldlM_relation {α β : Type} {R : β → β → Prop} (hrefl : ∀ b, R b b)
    (htrans : ∀ a b c, R a b → R b c → R a c) {f : β → α → Except Err β} {xs : List α} {b b' : β}
    (hf : ∀ c x c', x ∈ xs → f c x = .ok c' → R c c') (h : xs.foldlM f b = .ok b') : R b b' := by
  induction xs generalizing b with
  | nil =>
    cases h
    exact hrefl _
  | cons x xs ih =>
    rw [List.foldlM_cons] at h
    obtain ⟨c, hc, h⟩ := bind_eq_ok.mp h
    refine htrans _ _ _ (hf b x c List.mem_cons_self hc) ?_
    exact ih (fun c x c' hx => hf c x c' (List.mem_cons_of_mem _ hx)) h

def Touched (keys : List String) (r r' : List (String × Val)) : Prop :=
  ∀ k, k ∉ keys → Val.getIn k r' = Val.getIn k r

namespace Touched

variable {keys : List String} {r r' r'' : List (String × Val)}

theorem refl (keys : List String) (r : List (String × Val)) : Touched keys r r := fun _ _ => rfl

theorem trans (h : Touched keys r r') (h' : Touched keys r' r'') : Touched keys r r'' :=
  fun k hk => (h' k hk).trans (h k hk)

theorem put {k : String} (hk : k ∈ keys) (v : Val) (h : Touched keys r r') :
    Touched keys r (Val.put k v r') := by
  intro k' hk'
  rw [Val.getIn_put, if_neg]
  · exact h k' hk'
  · rintro rfl
    exact hk' hk

theorem foldl_put {fields : List (String × Val)} (hfields : ∀ e ∈ fields, e.1 ∈ keys)
    (h : Touched keys r r') : Touched keys r (fields.foldl (fun s e => Val.put e.1 e.2 s) r') := by
  induction fields generalizing r' with
  | nil => exact h
  | cons e fields ih =>
    refine ih (fun e' he' => hfields e' (List.mem_cons_of_mem e he')) ?_
    exact h.put (hfields e List.mem_cons_self) e.2

/-- A fold that may raise touches what its steps touch. -/
theorem foldlM {α : Type} {f : List (String × Val) → α → Except Err (List (String × Val))}
    {xs : List α} (hf : ∀ s x s', x ∈ xs → f s x = .ok s' → Touched keys s s')
    (h : xs.foldlM f r = .ok r') : Touched keys r r' :=
  foldlM_relation (refl keys) (fun _ _ _ => trans) hf h

end Touched

end Lib
end ZeroRuntime
