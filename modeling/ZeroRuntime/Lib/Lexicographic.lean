import Mathlib.Order.Defs.Unbundled

/-!
# ZeroRuntime.Lib.Lexicographic

Lists compared element by element, as `xs <= ys` compares them: a list comes before those it is the
beginning of. Over a total order of the elements this is a total order of the lists.
-/

namespace ZeroRuntime
namespace Lib

variable {α : Type}

def LexLe (le : α → α → Prop) : List α → List α → Prop
  | [], _ => True
  | _ :: _, [] => False
  | a :: as, b :: bs => a ≠ b ∧ le a b ∨ a = b ∧ LexLe le as bs

instance LexLe.decidable (le : α → α → Prop) [DecidableEq α] [DecidableRel le] :
    DecidableRel (LexLe le)
  | [], _ => .isTrue trivial
  | _ :: _, [] => .isFalse id
  | a :: as, b :: bs =>
    haveI := LexLe.decidable le as bs
    inferInstanceAs (Decidable (a ≠ b ∧ le a b ∨ a = b ∧ LexLe le as bs))

variable {le : α → α → Prop}

instance [Std.Total le] : Std.Total (LexLe le) := by
  refine ⟨fun as => ?_⟩
  induction as with
  | nil => exact fun _ => .inl trivial
  | cons a as ih =>
    intro bs
    cases bs with
    | nil => exact .inr trivial
    | cons b bs =>
      by_cases heq : a = b
      · rcases ih bs with h | h
        · exact .inl (.inr ⟨heq, h⟩)
        · exact .inr (.inr ⟨heq.symm, h⟩)
      · rcases Std.Total.total (r := le) a b with h | h
        · exact .inl (.inl ⟨heq, h⟩)
        · exact .inr (.inl ⟨Ne.symm heq, h⟩)

instance [Std.Antisymm le] : Std.Antisymm (LexLe le) := by
  refine ⟨fun as => ?_⟩
  induction as with
  | nil =>
    intro bs _ h'
    cases bs with
    | nil => rfl
    | cons b bs => exact absurd h' id
  | cons a as ih =>
    intro bs h h'
    cases bs with
    | nil => exact absurd h id
    | cons b bs =>
      rcases h with ⟨hne, hle⟩ | ⟨rfl, hle⟩
      · rcases h' with ⟨-, hle'⟩ | ⟨heq, -⟩
        · exact absurd (Std.Antisymm.antisymm a b hle hle') hne
        · exact absurd heq.symm hne
      · rcases h' with ⟨hne, -⟩ | ⟨-, hle'⟩
        · exact absurd rfl hne
        · rw [ih bs hle hle']

instance [Std.Antisymm le] [IsTrans α le] : IsTrans (List α) (LexLe le) := by
  refine ⟨fun as => ?_⟩
  induction as with
  | nil => exact fun _ _ _ _ => trivial
  | cons a as ih =>
    intro bs cs h h'
    cases bs with
    | nil => exact absurd h id
    | cons b bs =>
      cases cs with
      | nil => exact absurd h' id
      | cons c cs =>
        rcases h with ⟨hne, hle⟩ | ⟨rfl, hle⟩
        · rcases h' with ⟨-, hle'⟩ | ⟨rfl, -⟩
          · refine .inl ⟨fun heq => ?_, IsTrans.trans a b c hle hle'⟩
            rw [← heq] at hle'
            exact hne (Std.Antisymm.antisymm a b hle hle')
          · exact .inl ⟨hne, hle⟩
        · rcases h' with hlt | ⟨rfl, hle'⟩
          · exact .inl hlt
          · exact .inr ⟨rfl, ih bs cs hle hle'⟩

end Lib
end ZeroRuntime
