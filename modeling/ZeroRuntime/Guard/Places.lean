import ZeroRuntime.Guard.ApplyPatch

/-!
# ZeroRuntime.Guard.Places

Where the files that the guard lets through lie.

* `Safe`: a text, read from the root of the project, names a place in the project that is not in
  one of the directories that need a confirmation, whatever the case of its letters.
* `isRepoSource_of_inside`: a relative text without `..` that lies in such a directory is seen.
* `safe_iff_detours_safe`: the files of an unconfirmed step the guard allows are safe exactly when
  those among them are that start at the root of the disk or go up.
-/

namespace ZeroRuntime
namespace Guard

open Lib PathText

/-! ## Safe places -/

/-- The directories that need a confirmation. -/
def repoSourceDirs : List String := ["core", "services", "tests", "runtime", "tasks", "planning"]

/-- The place is in the project, and not in one of the directories that need a confirmation. -/
def SafePlace (root place : List String) : Prop :=
  ∃ names, place = root ++ names ∧
    ∀ dir ∈ repoSourceDirs, ∀ name below, names = name :: below → below ≠ [] →
      Text.lower name ≠ dir

/-- The text names a safe place. -/
def Safe (root : List String) (s : String) : Prop := SafePlace root (placeFrom root (forward s))

/-- The text starts at the root of the disk, or goes up. -/
def Detour (s : String) : Prop := isAbsolute (forward s) = true ∨ ".." ∈ segments (forward s)

/-! ## What the guard sees -/

def isDot (c : Char) : Bool := c = '.' || c = '/'

/-- A segment that names something, as characters. -/
def isNameChars (seg : List Char) : Bool := seg ≠ [] && seg ≠ ['.']

/-- Leading dots and slashes are dropped up to the first name, when that starts with neither. -/
theorem dropWhile_names {cs name : List Char} {names : List (List Char)}
    (hnames : (Text.splitChars '/' cs).filter isNameChars = name :: names)
    (hmore : names ≠ []) (hname : name.head?.any (fun c => !isDot c) = true) :
    ∃ rest, cs.dropWhile isDot = name ++ '/' :: rest := by
  generalize hsplit : Text.splitChars '/' cs = segs at hnames
  induction segs generalizing cs with
  | nil => cases hnames
  | cons seg segs ih =>
    have hsegs : segs ≠ [] := by
      rintro rfl
      have hlength := List.length_filter_le isNameChars [seg]
      rw [hnames] at hlength
      have hlonger : 0 < names.length := List.length_pos_iff.mpr hmore
      simp only [List.length_cons, List.length_nil] at hlength
      omega
    obtain ⟨rest, rfl, hrest⟩ := splitChars_cons hsplit hsegs
    by_cases hskip : seg = [] ∨ seg = ['.']
    · have hfilter : segs.filter isNameChars = name :: names := by
        rcases hskip with rfl | rfl <;> exact hnames
      have hdrop : (seg ++ '/' :: rest).dropWhile isDot = rest.dropWhile isDot := by
        rcases hskip with rfl | rfl <;> rfl
      rw [hdrop]
      exact ih hrest hfilter
    · have hkeep : isNameChars seg = true := by simpa [isNameChars] using not_or.mp hskip
      rw [List.filter_cons_of_pos hkeep] at hnames
      obtain ⟨rfl, -⟩ := List.cons.inj hnames
      cases seg with
      | nil => cases hname
      | cons c seg =>
        have hc : isDot c = false := by simpa using hname
        exact ⟨rest, by rw [List.cons_append, List.dropWhile_cons_of_neg (by simp [hc])]⟩

theorem isName_ofList (seg : List Char) : isName (String.ofList seg) = isNameChars seg := by
  have hempty : String.ofList seg = "" ↔ seg = [] := by
    rw [← String.toList_inj, String.toList_ofList]
    rfl
  have hdot : String.ofList seg = "." ↔ seg = ['.'] := by
    rw [← String.toList_inj, String.toList_ofList]
    rfl
  simp only [isName, isNameChars, ne_eq, hempty, hdot]

/-- The directories start with a letter, and so does what is one of them in small letters. -/
theorem head_of_lower {dir name : String} (hdir : dir ∈ repoSourceDirs)
    (hname : Text.lower name = dir) : name.toList.head?.any (fun c => !isDot c) = true := by
  have hletter : ∀ dir ∈ repoSourceDirs, dir.toList.head?.any (fun c => !isDot c) = true := by
    decide
  have hhead := hletter dir hdir
  rw [← hname, Text.lower, String.toList_ofList, List.head?_map] at hhead
  cases hchars : name.toList.head? with
  | none =>
    rw [hchars] at hhead
    exact hhead
  | some c =>
    rw [hchars] at hhead
    simp only [Option.map_some, Option.any_some, Bool.not_eq_true'] at hhead ⊢
    by_contra hdot
    rw [Bool.not_eq_false, isDot, Bool.or_eq_true, decide_eq_true_iff, decide_eq_true_iff] at hdot
    rcases hdot with rfl | rfl <;> exact absurd hhead (by decide)

/-- A text that lies in a directory that needs a confirmation is seen as such, if it says so from
the front. -/
theorem isRepoSource_of_inside {s name : String} {below : List String} {dir : String}
    (hdir : dir ∈ repoSourceDirs) (hbelow : below ≠ [])
    (hnames : (segments s).filter isName = name :: below) (hname : Text.lower name = dir) :
    isRepoSource (stripDots s) = true := by
  rw [segments, Text.split, List.filter_map] at hnames
  obtain ⟨nameChars, belowChars, hfilter, hofName, hofBelow⟩ := List.map_eq_cons_iff.mp hnames
  have hkept : (Text.splitChars '/' s.toList).filter isNameChars = nameChars :: belowChars := by
    rw [← hfilter]
    congr 1
    funext seg
    exact (isName_ofList seg).symm
  have hmore : belowChars ≠ [] := by
    rintro rfl
    exact hbelow hofBelow.symm
  have hchars : name.toList = nameChars := by rw [← hofName, String.toList_ofList]
  have hhead := head_of_lower hdir hname
  rw [hchars] at hhead
  obtain ⟨rest, hrest⟩ := dropWhile_names hkept hmore hhead
  have hlower :
      (Text.lower (stripDots s)).toList = (dir ++ "/").toList ++ rest.map Char.toLower := by
    have hstrip : (stripDots s).toList = nameChars ++ '/' :: rest := by
      rw [stripDots, String.toList_ofList, ← hrest]
      rfl
    rw [← hname, Text.lower, Text.lower, String.toList_append, String.toList_ofList,
      String.toList_ofList, hstrip, hchars, List.map_append, List.append_assoc]
    rfl
  have hstarts : Text.startsWith (Text.lower (stripDots s)) (dir ++ "/") = true :=
    isPrefix_iff.mpr ⟨rest.map Char.toLower, hlower.symm⟩
  have hmem : ∀ dir ∈ repoSourceDirs, dir ++ "/" ∈ repoSourcePrefixes := by decide
  exact List.any_eq_true.mpr ⟨dir ++ "/", hmem dir hdir, hstarts⟩

theorem safe_of_unseen {root : List String} {s : String} (hdetour : ¬Detour s)
    (hunseen : isRepoSource (trimPath s) = false) : Safe root s := by
  obtain ⟨habsolute, hplain⟩ := not_or.mp hdetour
  rw [Bool.not_eq_true] at habsolute
  refine ⟨(segments (forward s)).filter isName, placeFrom_plain habsolute hplain, ?_⟩
  intro dir hdir name below hnames hbelow hname
  have hseen := isRepoSource_of_inside hdir hbelow hnames hname
  rw [← trimPath, hunseen] at hseen
  cases hseen

/-! ## The files of a step -/

/-- The texts by which a step names the files it changes. -/
def changedTexts (step : Entries) : List String :=
  (stepText step :: patchTexts step ++ (editTexts step).1 ++ (editTexts step).2).filter (· ≠ "")

variable {step : Entries}

/-- A named file is among those the guard looks at, unless nothing is left of its text. -/
theorem mem_changedFiles {f : String} (hf : f ∈ changedTexts step) (htrim : trimPath f ≠ "") :
    trimPath f ∈ changedFiles step := by
  obtain ⟨hmem, -⟩ := List.mem_filter.mp hf
  have hne : decide (trimPath f ≠ "") = true := decide_eq_true htrim
  rw [changedFiles, List.mem_eraseDups]
  rcases List.mem_append.mp hmem with hmem | hedited
  · rcases List.mem_append.mp hmem with hmem | hchanged
    · rcases List.mem_cons.mp hmem with rfl | hpatch
      · have hraw : rawPath step = trimPath (stepText step) := by
          rw [rawPath]
          exact if_neg htrim
        simp [hraw]
      · have htarget : trimPath f ∈ patchTargets step :=
          List.mem_filter.mpr ⟨List.mem_map_of_mem hpatch, hne⟩
        simp [htarget]
    · have htext : trimPath f ∈ (editTexts step).1.map trimPath := List.mem_map_of_mem hchanged
      exact List.mem_append_left _ (List.mem_append_right _ htext)
  · have htext : trimPath f ∈ ((editTexts step).2.map trimPath).filter (· ≠ "") :=
      List.mem_filter.mpr ⟨List.mem_map_of_mem hedited, hne⟩
    exact List.mem_append_right _ htext

theorem denyUnconfirmed_ok (findPythonImporters : List String → List String) (step : Entries)
    (error guardMode reason : String) :
    (denyUnconfirmed findPythonImporters step error guardMode reason).ok = false := rfl

variable {findPythonImporters : List String → List String}

/-- What the guard allows without a confirmation looks harmless to it. -/
theorem repoSource_of_allowed (hallowed : (check findPythonImporters step).ok = true)
    (hconfirmed : confirmed step = false) : repoSource step = false := by
  unfold check at hallowed
  by_contra hsource
  rw [Bool.not_eq_false] at hsource
  simp only [hsource, hconfirmed, Bool.false_eq_true, not_false_eq_true, and_true, true_and]
    at hallowed
  split_ifs at hallowed
  · rw [denyUnconfirmed_ok] at hallowed
    cases hallowed
  · rw [denyUnconfirmed_ok] at hallowed
    cases hallowed

theorem unseen_of_allowed (hallowed : (check findPythonImporters step).ok = true)
    (hconfirmed : confirmed step = false) {f : String} (hf : f ∈ changedTexts step) :
    isRepoSource (trimPath f) = false := by
  by_cases htrim : trimPath f = ""
  · rw [htrim]
    decide
  · have hnone := repoSource_of_allowed hallowed hconfirmed
    rw [repoSource, List.any_eq_false] at hnone
    simpa using hnone _ (mem_changedFiles hf htrim)

theorem safe_iff_detours_safe (root : List String)
    (findPythonImporters : List String → List String) (step : Entries)
    (hallowed : (check findPythonImporters step).ok = true) (hconfirmed : confirmed step = false) :
    (∀ f ∈ changedTexts step, Safe root f) ↔
      ∀ f ∈ changedTexts step, Detour f → Safe root f := by
  constructor
  · intro h f hf _
    exact h f hf
  · intro h f hf
    by_cases hdetour : Detour f
    · exact h f hf hdetour
    · exact safe_of_unseen hdetour (unseen_of_allowed hallowed hconfirmed hf)

/-- A step that patches one file. -/
def patching (path : String) : Entries := [("type", .str "apply_patch"), ("target_path", .str path)]

theorem safe_iff_detours_safe_workspace :
    Safe ["srv"] "workspace/a.py" ∧
      ((∀ f ∈ changedTexts (patching "workspace/a.py"), Safe ["srv"] f) ↔
        ∀ f ∈ changedTexts (patching "workspace/a.py"), Detour f → Safe ["srv"] f) :=
  ⟨safe_of_unseen (by rw [Detour]; decide) (by decide),
    safe_iff_detours_safe ["srv"] (fun _ => []) (patching "workspace/a.py") (by decide)
      (by decide)⟩

/-- A way up behind an innocent directory leads into `core`. -/
theorem allowed_into_core : ∃ root step, ∃ f ∈ changedTexts step,
    (check (fun _ => []) step).ok = true ∧ confirmed step = false ∧ ¬Safe root f := by
  refine ⟨["srv"], patching "workspace/../core/x.py", "workspace/../core/x.py", by decide,
    by decide, by decide, ?_⟩
  rintro ⟨names, hplace, hsafe⟩
  have hwalk : placeFrom ["srv"] (forward "workspace/../core/x.py") =
      ["srv"] ++ ["core", "x.py"] := by
    decide
  obtain rfl := List.append_cancel_left (hplace.symm.trans hwalk)
  exact hsafe "core" (by decide) "core" ["x.py"] rfl (by decide) (by decide)

end Guard
end ZeroRuntime
