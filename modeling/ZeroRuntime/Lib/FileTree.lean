import Mathlib.Data.Finset.Image
import Mathlib.Data.List.Infix
import ZeroRuntime.Lib.Value

/-!
# ZeroRuntime.Lib.FileTree

File trees: which paths there are, and whether each is a directory or a file with some content.

A path lists its names from the last one to the first, so `n :: p` is the entry `n` of `p`, `[]` is
the root, and `p <:+ q` says that `q` is `p` or below it. That entries lie in directories, and that
`paths` lists what there is, are fields of the structure: trees with the same entries are equal.

The operations are those of a file system. One that cannot be done answers `osError`.

* `none_below`: nothing lies below a path that does not exist.
-/

namespace ZeroRuntime
namespace Lib

abbrev Path := List String

/-- The content of a file: a text, or bytes that are no UTF-8. -/
inductive Bytes where
  | text (s : String)
  | binary (b : List ℕ)
deriving DecidableEq, Repr

inductive Node where
  | file (b : Bytes)
  | dir
deriving DecidableEq, Repr

structure FileTree where
  get : Path → Option Node
  paths : Finset Path
  mem_paths : ∀ p, p ∈ paths ↔ (get p).isSome = true
  rooted : ∀ n p, (get (n :: p)).isSome = true → p = [] ∨ get p = some .dir
  noRoot : get [] = none

namespace FileTree

def empty : FileTree :=
  { get := fun _ => none
    paths := ∅
    mem_paths := by simp
    rooted := by simp
    noRoot := rfl }

variable (w : FileTree)

def has (p : Path) : Bool := (w.get p).isSome

def isFile (p : Path) : Bool :=
  match w.get p with
  | some (.file _) => true
  | _ => false

def isDir (p : Path) : Bool := w.get p = some .dir

def read (p : Path) : Except Err Bytes :=
  match w.get p with
  | some (.file b) => .ok b
  | _ => .error .osError

/-- An entry can be made at the path: what it lies in is a directory. -/
def HasParent : Path → Prop
  | [] => False
  | _ :: p => p = [] ∨ w.get p = some .dir

instance : (p : Path) → Decidable (w.HasParent p)
  | [] => .isFalse fun h => h
  | _ :: p => inferInstanceAs (Decidable (p = [] ∨ w.get p = some .dir))

variable {w}

theorem HasParent.ne_nil {p : Path} (h : w.HasParent p) : p ≠ [] := by
  rintro rfl
  exact h

theorem hasParent_of_get {p : Path} (h : (w.get p).isSome = true) : w.HasParent p := by
  cases p with
  | nil =>
    rw [w.noRoot] at h
    cases h
  | cons n p => exact w.rooted n p h

/-- Nothing lies below a path that does not exist. -/
theorem none_below {p q : Path} (hp : w.get p = none) (hne : p ≠ []) (hq : p <:+ q) :
    w.get q = none := by
  obtain ⟨r, rfl⟩ := hq
  induction r with
  | nil => exact hp
  | cons n r ih =>
    cases hget : w.get (n :: r ++ p) with
    | none => rfl
    | some v =>
      rcases w.rooted n (r ++ p) (by rw [← List.cons_append, hget]; rfl) with hnil | hdir
      · exact absurd (List.append_eq_nil_iff.mp hnil).2 hne
      · rw [ih] at hdir
        cases hdir

/-! ## Single entries -/

section Entries

variable (w)

def setNode (p : Path) (v : Node) (hp : w.HasParent p) (hv : w.get p = some .dir → v = .dir) :
    FileTree where
  get q := if q = p then some v else w.get q
  paths := insert p w.paths
  mem_paths q := by
    by_cases h : q = p
    · simp [h]
    · simp [h, w.mem_paths]
  rooted n q hq := by
    have hparent : q = [] ∨ w.get q = some .dir := by
      by_cases h : n :: q = p
      · subst h
        exact hp
      · rw [if_neg h] at hq
        exact w.rooted n q hq
    rcases hparent with h | h
    · exact .inl h
    · right
      split
      · rename_i heq
        subst heq
        rw [hv h]
      · exact h
  noRoot := by
    rw [if_neg (Ne.symm hp.ne_nil)]
    exact w.noRoot

/-- The tree with one entry less, which nothing lies in. -/
def removeNode (p : Path) (hleaf : ∀ n, w.get (n :: p) = none) : FileTree where
  get q := if q = p then none else w.get q
  paths := w.paths.erase p
  mem_paths q := by
    by_cases h : q = p
    · simp [h]
    · simp [h, w.mem_paths]
  rooted n q hq := by
    by_cases h : n :: q = p
    · rw [if_pos h] at hq
      cases hq
    · rw [if_neg h] at hq
      rcases w.rooted n q hq with hnil | hdir
      · exact .inl hnil
      · right
        rw [if_neg, hdir]
        rintro rfl
        rw [hleaf n] at hq
        cases hq
  noRoot := by
    split
    · rfl
    · exact w.noRoot

/-- Opening a file for writing, or moving one here: it is made, or its content replaced. -/
def put (p : Path) (b : Bytes) : Except Err FileTree :=
  if h : w.HasParent p ∧ w.get p ≠ some .dir then
    .ok (w.setNode p (.file b) h.1 fun hd => absurd hd h.2)
  else .error .osError

def mkdir (p : Path) : Except Err FileTree :=
  if h : w.HasParent p ∧ w.get p = none then
    .ok (w.setNode p .dir h.1 fun _ => rfl)
  else .error .osError

theorem file_leaf {w : FileTree} {p : Path} (h : w.isFile p = true) (n : String) :
    w.get (n :: p) = none := by
  cases hget : w.get (n :: p) with
  | none => rfl
  | some v =>
    unfold isFile at h
    rcases w.rooted n p (by rw [hget]; rfl) with hnil | hdir
    · rw [hnil, w.noRoot] at h
      cases h
    · rw [hdir] at h
      cases h

def unlink (p : Path) : Except Err FileTree :=
  if h : w.isFile p = true then .ok (w.removeNode p (file_leaf h)) else .error .osError

/-- Something lies in the directory. -/
def hasEntries (p : Path) : Bool := decide (∃ q ∈ w.paths, q.tail = p ∧ q ≠ [])

theorem leaf_of_noEntries {w : FileTree} {p : Path} (h : w.hasEntries p = false) (n : String) :
    w.get (n :: p) = none := by
  cases hget : w.get (n :: p) with
  | none => rfl
  | some v =>
    have hmem : n :: p ∈ w.paths := by
      rw [w.mem_paths, hget]
      rfl
    simp only [hasEntries, decide_eq_false_iff_not, not_exists, not_and] at h
    exact absurd (List.cons_ne_nil n p) (h _ hmem rfl)

def rmdir (p : Path) : Except Err FileTree :=
  if h : w.get p = some .dir ∧ w.hasEntries p = false then
    .ok (w.removeNode p (leaf_of_noEntries h.2))
  else .error .osError

end Entries

/-! ## Renaming -/

/-- The path below `s` that a path below `t` stands for. -/
def rebase (t s q : Path) : Path := q.take (q.length - t.length) ++ s

@[simp] theorem rebase_append (t s r : Path) : rebase t s (r ++ t) = r ++ s := by
  simp [rebase]

section Move

variable (w)

/-- The tree after what is at `s` and below is moved to `t`. -/
def moveNode (s t : Path) (ht : w.HasParent t) (hfree : w.get t = none) (hs : s ≠ [])
    (hunder : ¬ s <:+ t) : FileTree where
  get q := if t <:+ q then w.get (rebase t s q) else if s <:+ q then none else w.get q
  paths := w.paths.filter (fun q => ¬ s <:+ q) ∪
    (w.paths.filter fun q => s <:+ q).image (rebase s t)
  mem_paths q := by
    have himage : q ∈ (w.paths.filter fun q => s <:+ q).image (rebase s t) ↔
        ∃ r, r ++ t = q ∧ (w.get (r ++ s)).isSome = true := by
      simp only [Finset.mem_image, Finset.mem_filter, w.mem_paths]
      constructor
      · rintro ⟨x, ⟨hx, r, rfl⟩, rfl⟩
        exact ⟨r, by simp, hx⟩
      · rintro ⟨r, rfl, hr⟩
        exact ⟨r ++ s, ⟨hr, r, rfl⟩, by simp⟩
    rw [Finset.mem_union, himage, Finset.mem_filter, w.mem_paths]
    by_cases htq : t <:+ q
    · have hnone := none_below hfree ht.ne_nil htq
      obtain ⟨r, rfl⟩ := htq
      have hsuffix : t <:+ r ++ t := ⟨r, rfl⟩
      rw [if_pos hsuffix, rebase_append, hnone]
      constructor
      · rintro (⟨h, -⟩ | ⟨r', hr', h⟩)
        · cases h
        · rw [List.append_cancel_right hr'] at h
          exact h
      · intro h
        exact .inr ⟨r, rfl, h⟩
    · rw [if_neg htq]
      have hno : ¬ ∃ r, r ++ t = q ∧ (w.get (r ++ s)).isSome = true := by
        rintro ⟨r, hr, -⟩
        exact htq ⟨r, hr⟩
      by_cases hsq : s <:+ q
      · simp [hsq, hno]
      · simp [hsq, hno]
  rooted n q hq := by
    by_cases htq : t <:+ n :: q
    · rw [if_pos htq] at hq
      obtain ⟨r, hr⟩ := htq
      cases r with
      | nil =>
        have hparent : q = [] ∨ w.get q = some .dir := by
          rw [List.nil_append] at hr
          subst hr
          exact ht
        rcases hparent with h | h
        · exact .inl h
        · right
          have htq : ¬ t <:+ q := by
            rintro ⟨r', hr'⟩
            have hlen := congrArg List.length hr
            have hlen' := congrArg List.length hr'
            simp only [List.nil_append, List.length_append, List.length_cons] at hlen hlen'
            omega
          have hsq : ¬ s <:+ q := by
            rintro hsq
            rw [List.nil_append] at hr
            exact hunder (hr ▸ hsq.trans (List.suffix_cons n q))
          rw [if_neg htq, if_neg hsq, h]
      | cons m r =>
        rw [List.cons_append, List.cons.injEq] at hr
        obtain ⟨rfl, rfl⟩ := hr
        have hmoved : (w.get (m :: (r ++ s))).isSome = true := by
          rw [← List.cons_append, rebase_append] at hq
          exact hq
        have hsuffix : t <:+ r ++ t := ⟨r, rfl⟩
        right
        rcases w.rooted m (r ++ s) hmoved with h | h
        · exact absurd (List.append_eq_nil_iff.mp h).2 hs
        · rw [if_pos hsuffix, rebase_append, h]
    · rw [if_neg htq] at hq
      split at hq
      · cases hq
      · rename_i hsq
        rcases w.rooted n q hq with h | h
        · exact .inl h
        · right
          have htq' : ¬ t <:+ q := fun h' => htq (h'.trans (List.suffix_cons n q))
          have hsq' : ¬ s <:+ q := fun h' => hsq (h'.trans (List.suffix_cons n q))
          rw [if_neg htq', if_neg hsq', h]
  noRoot := by
    have h : ¬ t <:+ [] := fun h => ht.ne_nil (List.suffix_nil.mp h)
    rw [if_neg h]
    split
    · rfl
    · exact w.noRoot

/-- Moving an entry to where there is none. -/
def rename (s t : Path) : Except Err FileTree :=
  if h : (w.get s).isSome = true ∧ w.HasParent t ∧ w.get t = none ∧ ¬ s <:+ t then
    .ok (w.moveNode s t h.2.1 h.2.2.1 (hasParent_of_get h.1).ne_nil h.2.2.2)
  else .error .osError

end Move

end FileTree
end Lib
end ZeroRuntime
