import Mathlib.Data.List.Perm.Subperm
import ZeroRuntime.Lib.Dict
import ZeroRuntime.Lib.Effect

/-!
# ZeroRuntime.Lib.Disk

Files that are written a piece at a time. A disk maps paths to contents; opening a file for writing
empties it, and every piece that follows is an operation of its own, so a write that fails can leave
any part of what was to be written.

* `writeFile`, `copyFile`: with `writeFile_spec` and `copyFile_spec`, which say that nothing changes
  elsewhere (`ChangedAt`) and what stands in the file if no operation failed.
* No program here removes a file: `Keeps` with `Present`.
* `freeName name d`: of the names `name 0`, `name 1`, … the first that no file has. There are only so
  many files, so the search comes to one (`freeName_free`).
-/

namespace ZeroRuntime
namespace Lib

abbrev Disk (β : Type) := Dict String (List β)

namespace Disk

variable {β : Type}

/-! ## Programs -/

/-- `open(path, "w")` -/
def create (path : String) : Eff (Disk β) Unit := Eff.modify fun d => .ok (d.set path [])

def append (path : String) (b : β) : Eff (Disk β) Unit :=
  Eff.modify fun d => .ok (d.set path ((d.get? path).getD [] ++ [b]))

def appendAll (path : String) : List β → Eff (Disk β) Unit
  | [] => pure ()
  | b :: bs => do
    append path b
    appendAll path bs

/-- An operation that changes no file. -/
def touch : Eff (Disk β) Unit := Eff.modify .ok

/-- Opening, writing and closing. -/
def writeFile (path : String) (content : List β) : Eff (Disk β) Unit := do
  create path
  appendAll path content
  touch

def readFile (path : String) : Eff (Disk β) (List β) :=
  Eff.query fun d =>
    match d.get? path with
    | some content => .ok content
    | none => .error .osError

/-- `shutil.copy2`; the last operation is that on the times of the file. -/
def copyFile (src dst : String) : Eff (Disk β) Unit := do
  let content ← readFile src
  writeFile dst content
  touch

/-! ## What they change -/

def Present (d : Disk β) (path : String) : Prop := ∃ content, d.get? path = some content

/-- The disks agree at every other path. -/
def ChangedAt (path : String) (d d' : Disk β) : Prop := ∀ q, q ≠ path → d'.get? q = d.get? q

theorem ChangedAt.refl (path : String) (d : Disk β) : ChangedAt path d d := fun _ _ => rfl

variable {d : Disk β}

theorem changedAt_set {path : String} {d₀ : Disk β} (h : ChangedAt path d₀ d) (content : List β) :
    ChangedAt path d₀ (d.set path content) := by
  intro q hq
  rw [Dict.get?_set, if_neg hq]
  exact h q hq

theorem get?_set_self (d : Disk β) (path : String) (content : List β) :
    (d.set path content).get? path = some content := by
  rw [Dict.get?_set, if_pos rfl]

/-- The postcondition of a program that writes one file: `R` says what stands there if it answers. -/
def onlyAt {α : Type} (path : String) (d₀ : Disk β) (R : α → Disk β → Prop) : Post (Disk β) α :=
  ⟨fun a d => ChangedAt path d₀ d ∧ R a d, ChangedAt path d₀, ChangedAt path d₀⟩

variable {plan : Plan} {path : String} {d₀ : Disk β}

theorem create_spec :
    Triple plan (ChangedAt path d₀) (create path)
      (onlyAt path d₀ fun _ d => d.get? path = some []) := by
  refine Triple.modify (fun _ hd => hd) (fun _ hd => hd) ?_
  rintro d d' hd ⟨⟩
  exact ⟨changedAt_set hd [], get?_set_self d path []⟩

theorem append_spec (b : β) (before : List β) :
    Triple plan (fun d => ChangedAt path d₀ d ∧ d.get? path = some before) (append path b)
      (onlyAt path d₀ fun _ d => d.get? path = some (before ++ [b])) := by
  refine Triple.modify (fun _ hd => hd.1) (fun _ hd => hd.1) ?_
  rintro d d' ⟨hd, hbefore⟩ ⟨⟩
  rw [hbefore]
  exact ⟨changedAt_set hd _, get?_set_self d path _⟩

/-- By induction on what is left to write. -/
theorem appendAll_spec (content : List β) :
    ∀ before, Triple plan (fun d => ChangedAt path d₀ d ∧ d.get? path = some before)
      (appendAll path content)
      (onlyAt path d₀ fun _ d => d.get? path = some (before ++ content)) := by
  induction content with
  | nil =>
    intro before
    refine Triple.pure fun d hd => ?_
    rw [List.append_nil]
    exact hd
  | cons b content ih =>
    intro before
    refine Triple.bind (append_spec b before) fun _ => ?_
    have hrest := ih (before ++ [b])
    rw [List.append_assoc, List.singleton_append] at hrest
    exact hrest

variable {P : Disk β → Prop}

theorem touch_spec {Q : Post (Disk β) Unit} (hdone : ∀ d, P d → Q.done () d)
    (hraised : ∀ d, P d → Q.raised d) (hcrashed : ∀ d, P d → Q.crashed d) :
    Triple plan P touch Q := by
  refine Triple.modify hraised hcrashed ?_
  rintro d d' hd ⟨⟩
  exact hdone d hd

theorem writeFile_spec (content : List β) :
    Triple plan (ChangedAt path d₀) (writeFile path content)
      (onlyAt path d₀ fun _ d => d.get? path = some content) := by
  refine Triple.bind create_spec fun _ => ?_
  refine Triple.bind (appendAll_spec content []) fun _ => ?_
  exact touch_spec (fun _ hd => hd) (fun _ hd => hd.1) fun _ hd => hd.1

theorem copyFile_spec {src dst : String} {content : List β} (hsrc : d₀.get? src = some content) :
    Triple plan (fun d => d = d₀) (copyFile src dst)
      (onlyAt dst d₀ fun _ d => d.get? dst = some content) := by
  have hread : Triple plan (fun d => d = d₀) (readFile src)
      (onlyAt dst d₀ fun a _ => a = content) := by
    refine Triple.query ?_ ?_ ?_
    · rintro d rfl
      exact ChangedAt.refl dst d
    · rintro d rfl
      exact ChangedAt.refl dst d
    · rintro d a rfl ha
      rw [hsrc] at ha
      cases ha
      exact ⟨ChangedAt.refl dst d, rfl⟩
  refine Triple.bind hread fun a => ?_
  refine Triple.bind (R := fun _ d => ChangedAt dst d₀ d ∧ d.get? dst = some content) ?_ fun _ => ?_
  · refine Triple.intro fun d hd => ?_
    obtain ⟨hd, rfl⟩ := hd
    refine (writeFile_spec a).conseq ?_ (fun _ _ hd => hd) (fun _ hd => hd) fun _ hd => hd
    rintro d' rfl
    exact hd
  · exact touch_spec (fun _ hd => hd) (fun _ hd => hd.1) fun _ hd => hd.1

/-! ## What they keep -/

theorem present_set_iff {path q : String} {content : List β} :
    Present (d.set path content) q ↔ q = path ∨ Present d q := by
  unfold Present
  rw [Dict.get?_set]
  by_cases hq : q = path
  · rw [if_pos hq]
    exact ⟨fun _ => Or.inl hq, fun _ => ⟨content, rfl⟩⟩
  · rw [if_neg hq]
    exact ⟨Or.inr, fun h => h.resolve_left hq⟩

variable {q : String}

theorem keeps_create : Keeps (fun d : Disk β => Present d q) (create path) := by
  refine Keeps.modify ?_
  rintro d d' hd ⟨⟩
  exact present_set_iff.mpr (Or.inr hd)

theorem keeps_appendAll (content : List β) :
    Keeps (fun d : Disk β => Present d q) (appendAll path content) := by
  induction content with
  | nil => exact Keeps.pure ()
  | cons b content ih =>
    refine Keeps.bind (Keeps.modify ?_) fun _ => ih
    rintro d d' hd ⟨⟩
    exact present_set_iff.mpr (Or.inr hd)

theorem keeps_touch {I : Disk β → Prop} : Keeps I touch := by
  refine Keeps.modify ?_
  rintro d d' hd ⟨⟩
  exact hd

theorem keeps_writeFile (content : List β) :
    Keeps (fun d : Disk β => Present d q) (writeFile path content) :=
  Keeps.bind keeps_create fun _ => Keeps.bind (keeps_appendAll content) fun _ => keeps_touch

theorem keeps_copyFile (src dst : String) :
    Keeps (fun d : Disk β => Present d q) (copyFile src dst) :=
  Keeps.bind (Keeps.query _) fun content =>
    Keeps.bind (keeps_writeFile content) fun _ => keeps_touch

/-! ## Where nothing fails -/

theorem modify_total {f : Disk β → Disk β} (hplan : ∀ n, plan n = .ok) :
    Triple plan (fun _ => True) (Eff.modify fun d => .ok (f d)) (Post.total fun _ _ => True) :=
  Triple.op_ok hplan fun d _ => ⟨(), f d, rfl, trivial⟩

theorem touch_total (hplan : ∀ n, plan n = .ok) : Triple plan P touch (Post.total fun _ => P) := by
  unfold touch Eff.modify
  exact Triple.op_ok hplan fun d hd => ⟨(), d, rfl, hd⟩

theorem appendAll_total (hplan : ∀ n, plan n = .ok) (content : List β) :
    Triple plan (fun _ => True) (appendAll path content) (Post.total fun _ _ => True) := by
  induction content with
  | nil => exact Triple.pure fun _ _ => trivial
  | cons b content ih => exact Triple.bind (modify_total hplan) fun _ => ih

theorem writeFile_total (hplan : ∀ n, plan n = .ok) (content : List β) :
    Triple plan (fun _ => True) (writeFile path content) (Post.total fun _ _ => True) :=
  Triple.bind (modify_total hplan) fun _ =>
    Triple.bind (appendAll_total hplan content) fun _ => modify_total hplan

theorem copyFile_total (hplan : ∀ n, plan n = .ok) (src dst : String) :
    Triple plan (fun d : Disk β => Present d src) (copyFile src dst)
      (Post.total fun _ _ => True) := by
  have hread : Triple plan (fun d : Disk β => Present d src) (readFile src)
      (Post.total fun _ _ => True) := by
    unfold readFile Eff.query
    refine Triple.op_ok hplan ?_
    rintro d ⟨content, hcontent⟩
    refine ⟨content, d, ?_, trivial⟩
    dsimp only
    rw [hcontent]
    rfl
  exact Triple.bind hread fun content =>
    Triple.bind (writeFile_total hplan content) fun _ => modify_total hplan

/-! ## Free names -/

/-- The first free name from number `n` on, with so many names to pass over. -/
def search (name : ℕ → String) (d : Disk β) : (fuel n : ℕ) → String
  | 0, n => name n
  | fuel + 1, n => if d.contains (name n) then search name d fuel (n + 1) else name n

/-- As many names as there are files can be taken. -/
def freeName (name : ℕ → String) (d : Disk β) : String := search name d d.keys.length 0

theorem contains_iff_present {q : String} : d.contains q = true ↔ Present d q :=
  Dict.contains_iff

theorem get?_eq_none_iff {q : String} : d.get? q = none ↔ ¬Present d q := by
  rw [Option.eq_none_iff_forall_ne_some]
  exact not_exists.symm

variable {name : ℕ → String}

/-- A search that ends at a name that is taken has passed over taken ones only. -/
theorem present_of_search (fuel : ℕ) :
    ∀ n, Present d (search name d fuel n) → ∀ i, i ≤ fuel → Present d (name (n + i)) := by
  induction fuel with
  | zero =>
    intro n h i hi
    obtain rfl : i = 0 := by omega
    exact h
  | succ fuel ih =>
    intro n h i hi
    rw [search] at h
    split at h
    · rename_i htaken
      cases i with
      | zero => exact contains_iff_present.mp htaken
      | succ i =>
        have hrest := ih (n + 1) h i (by omega)
        rwa [Nat.add_assoc, Nat.add_comm 1 i] at hrest
    · rename_i hfree
      exact absurd (contains_iff_present.mpr h) hfree

theorem search_eq (fuel : ℕ) : ∀ n, ∃ k, search name d fuel n = name k := by
  induction fuel with
  | zero => exact fun n => ⟨n, rfl⟩
  | succ fuel ih =>
    intro n
    rw [search]
    split
    · exact ih (n + 1)
    · exact ⟨n, rfl⟩

theorem freeName_eq (name : ℕ → String) (d : Disk β) : ∃ k, freeName name d = name k :=
  search_eq d.keys.length 0

theorem freeName_free (hname : Function.Injective name) (d : Disk β) :
    ¬Present d (freeName name d) := by
  intro h
  have htaken := present_of_search d.keys.length 0 h
  have hsub : (List.range (d.keys.length + 1)).map name ⊆ d.keys := by
    intro q hq
    obtain ⟨i, hi, rfl⟩ := List.mem_map.mp hq
    have hpresent := htaken i (Nat.le_of_lt_succ (List.mem_range.mp hi))
    rw [Nat.zero_add] at hpresent
    exact Dict.mem_keys.mpr hpresent
  have hnodup : ((List.range (d.keys.length + 1)).map name).Nodup :=
    List.nodup_range.map hname
  have hle := (List.subperm_of_subset hnodup hsub).length_le
  rw [List.length_map, List.length_range] at hle
  omega

theorem search_congr {d' : Disk β} (h : ∀ q, Present d q ↔ Present d' q) (fuel : ℕ) :
    ∀ n, search name d fuel n = search name d' fuel n := by
  induction fuel with
  | zero => exact fun _ => rfl
  | succ fuel ih =>
    intro n
    have hcontains : d.contains (name n) = d'.contains (name n) :=
      Bool.eq_iff_iff.mpr (by rw [contains_iff_present, contains_iff_present, h])
    rw [search, search, hcontains, ih]

/-- Only which files there are matters. -/
theorem freeName_congr {d' : Disk β} (h : ∀ q, Present d q ↔ Present d' q) :
    freeName name d = freeName name d' := by
  have hkeys : d.keys.Perm d'.keys := by
    refine (List.perm_ext_iff_of_nodup d.nodup d'.nodup).mpr fun q => ?_
    exact Dict.mem_keys.trans ((h q).trans Dict.mem_keys.symm)
  rw [freeName, freeName, hkeys.length_eq]
  exact search_congr h _ 0

end Disk

end Lib
end ZeroRuntime
