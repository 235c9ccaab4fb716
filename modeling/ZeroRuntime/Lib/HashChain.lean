import Mathlib.Data.List.Induction

/-!
# ZeroRuntime.Lib.HashChain

Lists of entries that are linked: each names the id of the one before it.

* `Linked prev id start es`: the first entry of `es` names `start`, every other the id of its
  predecessor.
* `Linked.agree`: when ids bind contents, and contents bind the names of the predecessors, two
  linked lists that end in the same id have the same contents throughout.
* `Linked.ids_eq`: the converse, two linked lists with the same contents and the same last id have
  the same ids.
-/

namespace ZeroRuntime
namespace Lib

variable {ε ι κ : Type} {prev id : ε → ι} {content : ε → κ} {start : ι}

/-- The id of the last entry, `start` when there is none. -/
def lastId (id : ε → ι) (start : ι) : List ε → ι
  | [] => start
  | e :: es => lastId id (id e) es

def Linked (prev id : ε → ι) (start : ι) : List ε → Prop
  | [] => True
  | e :: es => prev e = start ∧ Linked prev id (id e) es

theorem lastId_append (es : List ε) (e : ε) : lastId id start (es ++ [e]) = id e := by
  induction es generalizing start with
  | nil => rfl
  | cons a es ih => exact ih

theorem linked_append (es : List ε) (e : ε) :
    Linked prev id start (es ++ [e]) ↔
      Linked prev id start es ∧ prev e = lastId id start es := by
  induction es generalizing start with
  | nil => simp [Linked, lastId]
  | cons a es ih =>
    simp only [List.cons_append, Linked, lastId, ih, and_assoc]

/-- Contents, from the last entry back. -/
theorem Linked.agree {es es' : List ε}
    (hid : ∀ e ∈ es, ∀ e' ∈ es', id e = id e' → content e = content e')
    (hprev : ∀ e e', content e = content e' → prev e = prev e')
    (hstart : ∀ e ∈ es, id e ≠ start) (hstart' : ∀ e ∈ es', id e ≠ start)
    (h : Linked prev id start es) (h' : Linked prev id start es')
    (hlast : lastId id start es = lastId id start es') : es.map content = es'.map content := by
  induction es using List.reverseRecOn generalizing es' with
  | nil =>
    cases es' using List.reverseRecOn with
    | nil => rfl
    | append_singleton es' e' =>
      rw [lastId_append] at hlast
      exact absurd hlast.symm (hstart' e' (by simp))
  | append_singleton es e ih =>
    cases es' using List.reverseRecOn with
    | nil =>
      rw [lastId_append] at hlast
      exact absurd hlast (hstart e (by simp))
    | append_singleton es' e' =>
      rw [lastId_append, lastId_append] at hlast
      have hcontent := hid e (by simp) e' (by simp) hlast
      obtain ⟨hes, he⟩ := (linked_append es e).mp h
      obtain ⟨hes', he'⟩ := (linked_append es' e').mp h'
      have hrest := ih (fun a ha b hb => hid a (by simp [ha]) b (by simp [hb]))
        (fun a ha => hstart a (by simp [ha])) (fun a ha => hstart' a (by simp [ha])) hes hes'
        (by rw [← he, ← he', hprev e e' hcontent])
      rw [List.map_append, List.map_append, hrest, List.map_singleton, List.map_singleton,
        hcontent]

/-- Ids, from the last entry back. -/
theorem Linked.ids_eq {es es' : List ε}
    (hprev : ∀ e e', content e = content e' → prev e = prev e') (h : Linked prev id start es)
    (h' : Linked prev id start es') (hcontent : es.map content = es'.map content)
    (hlast : lastId id start es = lastId id start es') : es.map id = es'.map id := by
  induction es using List.reverseRecOn generalizing es' with
  | nil =>
    rw [List.map_nil] at hcontent
    rw [List.map_eq_nil_iff.mp hcontent.symm]
  | append_singleton es e ih =>
    cases es' using List.reverseRecOn with
    | nil => simp at hcontent
    | append_singleton es' e' =>
      rw [lastId_append, lastId_append] at hlast
      rw [List.map_append, List.map_append] at hcontent
      obtain ⟨hmap, he⟩ := List.append_inj' hcontent rfl
      have hcontent' : content e = content e' := by simpa using he
      obtain ⟨hes, hprevE⟩ := (linked_append es e).mp h
      obtain ⟨hes', hprevE'⟩ := (linked_append es' e').mp h'
      have hrest := ih hes hes' hmap (by rw [← hprevE, ← hprevE', hprev e e' hcontent'])
      rw [List.map_append, List.map_append, hrest, List.map_singleton, List.map_singleton, hlast]

end Lib
end ZeroRuntime
