import Mathlib.Data.List.Infix
import ZeroRuntime.Lib.Dict
import ZeroRuntime.Lib.Value

/-!
# ZeroRuntime.Lib.FileMap

Directories as maps from paths to the contents of files. A path lists its names from the top, and is
a directory if a file lies below it. That no file lies below a file is a field of the structure.

* `write`: a file is made or written over. It fails where the path is a directory, or `blocked`: a
  file is on the way to it.
* `erase`: a file is removed.
-/

namespace ZeroRuntime
namespace Lib

/-- Names, from the top. -/
abbrev Names := List String

structure FileMap where
  files : Dict Names String
  flat : ∀ p ∈ files.keys, ∀ q ∈ files.keys, p <+: q → p = q

namespace FileMap

def empty : FileMap := ⟨Dict.empty, fun _ h => by cases h⟩

def get? (f : FileMap) (p : Names) : Option String := f.files.get? p

/-- A file lies below the path. -/
def isDir (f : FileMap) (p : Names) : Bool := f.files.keys.any fun q => p.isPrefixOf q && p ≠ q

/-- A file is on the way to the path. -/
def blocked (f : FileMap) (p : Names) : Bool := f.files.keys.any fun q => q.isPrefixOf p && q ≠ p

/-- `path.exists()` -/
def present (f : FileMap) (p : Names) : Bool := (f.get? p).isSome || f.isDir p

variable {f : FileMap} {p : Names}

theorem mem_keys : p ∈ f.files.keys ↔ ∃ c, f.get? p = some c :=
  Dict.mem_keys

theorem isDir_iff : f.isDir p = true ↔ ∃ q, q ∈ f.files.keys ∧ p <+: q ∧ p ≠ q := by
  unfold isDir
  simp only [List.any_eq_true, Bool.and_eq_true, List.isPrefixOf_iff_prefix, decide_eq_true_eq]

theorem blocked_iff : f.blocked p = true ↔ ∃ q, q ∈ f.files.keys ∧ q <+: p ∧ q ≠ p := by
  unfold blocked
  simp only [List.any_eq_true, Bool.and_eq_true, List.isPrefixOf_iff_prefix, decide_eq_true_eq]

variable {c : String}

/-- A file is not a directory. -/
theorem not_isDir_of_file (h : f.get? p = some c) : f.isDir p = false := by
  rw [← Bool.not_eq_true, isDir_iff]
  rintro ⟨q, hq, hpre, hne⟩
  exact hne (f.flat p (mem_keys.mpr ⟨c, h⟩) q hq hpre)

/-! ## Writing -/

/-- The path can hold a file. -/
def hasRoom (f : FileMap) (p : Names) : Bool := !f.isDir p && !f.blocked p

theorem flat_set (h : f.hasRoom p = true) (c : String) :
    ∀ q ∈ (f.files.set p c).keys, ∀ q' ∈ (f.files.set p c).keys, q <+: q' → q = q' := by
  have hkeys : ∀ q, q ∈ (f.files.set p c).keys ↔ q = p ∨ q ∈ f.files.keys := fun q =>
    Dict.mem_fst_setEntries
  unfold hasRoom at h
  rw [Bool.and_eq_true, Bool.not_eq_true', Bool.not_eq_true', ← Bool.not_eq_true,
    ← Bool.not_eq_true, isDir_iff, blocked_iff] at h
  intro q hq q' hq' hpre
  rcases (hkeys q).mp hq with hp | hold
  · rcases (hkeys q').mp hq' with hp' | hold'
    · rw [hp, hp']
    · rw [hp] at hpre ⊢
      by_contra hne
      exact h.1 ⟨q', hold', hpre, hne⟩
  · rcases (hkeys q').mp hq' with hp' | hold'
    · rw [hp'] at hpre ⊢
      by_contra hne
      exact h.2 ⟨q, hold, hpre, hne⟩
    · exact f.flat q hold q' hold' hpre

/-- `path.write_text(content)`, with the directories on the way. -/
def write (f : FileMap) (p : Names) (c : String) : Except Err FileMap :=
  if h : f.hasRoom p = true then .ok ⟨f.files.set p c, flat_set h c⟩ else .error .osError

theorem write_ok {f' : FileMap} (h : f.write p c = .ok f') :
    f.hasRoom p = true ∧ ∀ q, f'.get? q = if q = p then some c else f.get? q := by
  unfold write at h
  split at h
  · rename_i hroom
    cases h
    exact ⟨hroom, fun q => Dict.get?_set _ _ _ _⟩
  · cases h

theorem write_isOk (h : f.hasRoom p = true) (c : String) : ∃ f', f.write p c = .ok f' := by
  unfold write
  rw [dif_pos h]
  exact ⟨_, rfl⟩

/-- There is room for a file where there is one. -/
theorem hasRoom_of_file (h : f.get? p = some c) : f.hasRoom p = true := by
  have hblocked : f.blocked p = false := by
    rw [← Bool.not_eq_true, blocked_iff]
    rintro ⟨q, hq, hpre, hne⟩
    exact hne (f.flat q hq p (mem_keys.mpr ⟨c, h⟩) hpre)
  unfold hasRoom
  rw [not_isDir_of_file h, hblocked]
  rfl

/-- A directory stays one when files are added. -/
theorem isDir_mono {f' : FileMap} (h : ∀ q c, f.get? q = some c → ∃ c', f'.get? q = some c')
    (hdir : f.isDir p = true) : f'.isDir p = true := by
  obtain ⟨q, hq, hpre, hne⟩ := isDir_iff.mp hdir
  obtain ⟨c, hc⟩ := mem_keys.mp hq
  exact isDir_iff.mpr ⟨q, mem_keys.mpr (h q c hc), hpre, hne⟩

/-! ## Removing -/

/-- `path.unlink()` -/
def erase (f : FileMap) (p : Names) : FileMap where
  files := f.files.erase p
  flat := by
    have hkeys : ∀ q, q ∈ (f.files.erase p).keys → q ∈ f.files.keys := by
      intro q hq
      obtain ⟨c, hc⟩ := Dict.mem_keys.mp hq
      rw [Dict.get?_erase] at hc
      split at hc
      · cases hc
      · exact Dict.mem_keys.mpr ⟨c, hc⟩
    exact fun q hq q' hq' hpre => f.flat q (hkeys q hq) q' (hkeys q' hq') hpre

theorem get?_erase (f : FileMap) (p q : Names) :
    (f.erase p).get? q = if q = p then none else f.get? q := Dict.get?_erase _ _ _

end FileMap
end Lib
end ZeroRuntime
