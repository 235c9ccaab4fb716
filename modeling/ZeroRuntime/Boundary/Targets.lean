import ZeroRuntime.Boundary.Mutation
import ZeroRuntime.Lib.PathText

/-!
# ZeroRuntime.Boundary.Targets

Which file a target of a mutation names, and which file the normalized target names.

* `cleaned`: a target without the blanks around it and with slashes for backslashes, which is how
  it is read everywhere.
* `leading`: the dots and slashes at its start, which are all taken away.
* `Kept`: what is taken away names nothing and leads nowhere.
* `keepsFiles_iff`: when each target is refused or still names the file it named.
-/

namespace ZeroRuntime
namespace Boundary

open Lib PathText

def cleaned (target : String) : String := Text.replaceChar '\\' '/' (Text.strip target)

def isLeading (c : Char) : Bool := c = '.' || c = '/'

def leading (text : String) : String := String.ofList (text.toList.takeWhile isLeading)

/-- The dots and slashes in front of a text are whole segments that lead back to the root, and they
are not all of it. -/
def Kept (root : List String) (text : String) : Prop :=
  leading text ≠ text ∧ (leading text = "" ∨ ∃ lead, leading text = lead ++ "/") ∧
    placeFrom root (leading text) = root

/-- The validation has something against the normalized target. -/
def Refused (target : String) : Prop :=
  normalizeTarget (.str target) ≠ "" ∧
    ∃ e, validateRelativeProjectPath (normalizeTarget (.str target)) = .error e

/-- If nothing is refused, every target that is not blank comes back as a relative path, which names
the file that it names. -/
def KeepsFiles (root targets : List String) : Prop :=
  ∀ paths, normalizeTargetFiles (.list (targets.map .str)) = .ok paths →
    ∀ target ∈ targets, cleaned target ≠ "" →
      normalizeTarget (.str target) ∈ paths ∧
        isAbsolute (normalizeTarget (.str target)) = false ∧
          placeFrom root (normalizeTarget (.str target)) = placeFrom root (cleaned target)

theorem normalizeTarget_str (target : String) :
    normalizeTarget (.str target) = trimPath (cleaned target) := by
  unfold normalizeTarget cleaned
  rw [Val.text_str]

/-! ## What is taken away -/

theorem isLeading_slash : isLeading '/' = true := rfl

theorem dropWhile_leading (cs : List Char) :
    (cs.dropWhile (· = '/')).dropWhile isLeading = cs.dropWhile isLeading := by
  induction cs with
  | nil => rfl
  | cons c cs ih =>
    by_cases hc : c = '/'
    · rw [List.dropWhile_cons_of_pos (by simpa using hc), ih,
        List.dropWhile_cons_of_pos (hc ▸ isLeading_slash)]
    · rw [List.dropWhile_cons_of_neg (by simpa using hc)]

theorem toList_trimPath (text : String) :
    (trimPath text).toList =
      ((text.toList.dropWhile (· = '/')).rdropWhile (· = '/')).dropWhile isLeading := by
  unfold trimPath
  rw [String.toList_ofList]
  rfl

variable {text : String}

/-- A text is its dots and slashes, the normalized target, and slashes. -/
theorem trimPath_split (h : trimPath text ≠ "") :
    ∃ tail : List Char, (∀ c ∈ tail, c = '/') ∧
      text.toList = (leading text).toList ++ (trimPath text).toList ++ tail := by
  have hne : (trimPath text).toList ≠ [] := fun hnil => h (String.toList_eq_nil_iff.mp hnil)
  rw [toList_trimPath] at hne ⊢
  unfold leading
  rw [String.toList_ofList]
  have hdrop := dropWhile_leading text.toList
  generalize text.toList.dropWhile (· = '/') = cs at hne hdrop ⊢
  have htail : cs = cs.rdropWhile (· = '/') ++ cs.rtakeWhile (· = '/') :=
    (List.rdropWhile_append_rtakeWhile).symm
  refine ⟨cs.rtakeWhile (· = '/'), fun c hc => ?_, ?_⟩
  · simpa using List.mem_rtakeWhile_imp hc
  · have hcs : cs.dropWhile isLeading =
        (cs.rdropWhile (· = '/')).dropWhile isLeading ++ cs.rtakeWhile (· = '/') := by
      conv_lhs => rw [htail]
      rw [List.dropWhile_append, if_neg (by simpa using hne)]
    rw [List.append_assoc, ← hcs, hdrop, List.takeWhile_append_dropWhile]

/-! ## What validation sees -/

/-- A part without blanks between separators is still there when the text is stripped. -/
theorem mem_splitChars_dropWhile {sep : Char} (hsep : Text.isSpace sep = false) {w cs : List Char}
    (hw : ∀ c ∈ w, Text.isSpace c = false) (h : w ∈ Text.splitChars sep cs) :
    w ∈ Text.splitChars sep (cs.dropWhile Text.isSpace) := by
  induction cs with
  | nil => exact h
  | cons c cs ih =>
    by_cases hc : Text.isSpace c = true
    · rw [List.dropWhile_cons_of_pos hc]
      have hne : c ≠ sep := by
        rintro rfl
        rw [hsep] at hc
        cases hc
      cases hsplit : Text.splitChars sep cs with
      | nil => exact absurd hsplit (splitChars_ne_nil sep cs)
      | cons seg segs =>
        have hcons := splitChars_prepend (fun hmem => hne (List.mem_singleton.mp hmem).symm) hsplit
        rw [List.singleton_append] at hcons
        rw [hcons] at h
        rcases List.mem_cons.mp h with rfl | hmem
        · rw [hw c List.mem_cons_self] at hc
          cases hc
        · exact ih (hsplit ▸ List.mem_cons_of_mem seg hmem)
    · rw [List.dropWhile_cons_of_neg hc]
      exact h

theorem mem_splitChars_rdropWhile {sep : Char} (hsep : Text.isSpace sep = false) {w cs : List Char}
    (hw : ∀ c ∈ w, Text.isSpace c = false) (h : w ∈ Text.splitChars sep cs) :
    w ∈ Text.splitChars sep (cs.rdropWhile Text.isSpace) := by
  induction cs using List.reverseRecOn with
  | nil => exact h
  | append_singleton cs c ih =>
    by_cases hc : Text.isSpace c = true
    · rw [List.rdropWhile_concat_pos _ _ _ hc]
      have hne : c ≠ sep := by
        rintro rfl
        rw [hsep] at hc
        cases hc
      obtain ⟨segs, seg, hcs, hconcat⟩ := splitChars_concat hne cs
      rw [hconcat] at h
      rcases List.mem_append.mp h with hmem | hmem
      · exact ih (hcs ▸ List.mem_append_left _ hmem)
      · rw [hw c (List.mem_singleton.mp hmem ▸ by simp)] at hc
        cases hc
    · rw [List.rdropWhile_concat_neg _ _ _ hc]
      exact h

theorem mem_segments_strip {s seg : String} (hseg : ∀ c ∈ seg.toList, Text.isSpace c = false)
    (h : seg ∈ segments s) : seg ∈ segments (Text.strip s) := by
  unfold segments Text.split at h ⊢
  obtain ⟨w, hw, rfl⟩ := List.mem_map.mp h
  rw [String.toList_ofList] at hseg
  refine List.mem_map_of_mem ?_
  unfold Text.strip
  rw [String.toList_ofList, Text.stripChars_eq]
  exact mem_splitChars_rdropWhile rfl hseg (mem_splitChars_dropWhile rfl hseg hw)

theorem not_mem_cleaned (target : String) : '\\' ∉ (cleaned target).toList := by
  unfold cleaned Text.replaceChar
  rw [String.toList_ofList, List.mem_map]
  rintro ⟨c, -, hc⟩
  split at hc
  · exact absurd hc (by decide)
  · rename_i hne
    exact hne hc

/-- A normalized target that validation lets through never goes up. -/
theorem plain_of_valid {target : String}
    (h : validateRelativeProjectPath (trimPath (cleaned target)) = .ok ()) :
    ".." ∉ segments (trimPath (cleaned target)) := by
  have hsame : Text.replaceChar '\\' '/' (trimPath (cleaned target)) =
      trimPath (cleaned target) := by
    refine Text.replaceChar_of_notMem fun hmem => not_mem_cleaned target ?_
    rw [toList_trimPath] at hmem
    have hright := (List.dropWhile_sublist _).mem hmem
    exact (List.dropWhile_sublist _).mem ((List.rdropWhile_prefix _ _).subset hright)
  intro hup
  have hdots : ∀ c ∈ "..".toList, Text.isSpace c = false := by
    intro c hc
    have hdot : c = '.' := by simpa using hc
    rw [hdot]
    rfl
  have hstripped := mem_segments_strip hdots hup
  unfold validateRelativeProjectPath at h
  rw [hsame] at h
  dsimp only at h
  split at h
  · cases h
  · split at h
    · cases h
    · split at h
      · cases h
      · rename_i hparts
        refine hparts (List.any_eq_true.mpr ⟨"..", ?_, by simp⟩)
        exact List.mem_filter.mpr ⟨hstripped, by simp⟩

/-! ## The place a target names -/

theorem names_slashes {s : String} {tail : List Char} (h : ∀ c ∈ tail, c = '/') :
    names (s ++ String.ofList tail) = names s ∧
      (".." ∉ segments s → ".." ∉ segments (s ++ String.ofList tail)) := by
  induction tail generalizing s with
  | nil =>
    have hempty : String.ofList [] = "" := rfl
    rw [hempty, String.append_empty]
    exact ⟨rfl, id⟩
  | cons c tail ih =>
    obtain ⟨hc, htail⟩ := List.forall_mem_cons.mp h
    have hsplit : s ++ String.ofList (c :: tail) = (s ++ "/") ++ String.ofList tail := by
      rw [hc, String.append_assoc]
      refine String.toList_inj.mp ?_
      simp only [String.toList_append, String.toList_ofList]
      rfl
    obtain ⟨hnames, hplain⟩ := @ih (s ++ "/") htail
    rw [hsplit, hnames]
    refine ⟨?_, fun hs => hplain ?_⟩
    · unfold names
      rw [segments_slash, List.filter_append]
      exact List.append_nil _
    · rw [segments_slash, List.mem_append, not_or]
      exact ⟨hs, by decide⟩

theorem trimPath_head (h : trimPath text ≠ "") :
    ∃ c cs, isLeading c = false ∧ (trimPath text).toList = c :: cs := by
  have hne : (trimPath text).toList ≠ [] := fun hnil => h (String.toList_eq_nil_iff.mp hnil)
  obtain ⟨c, cs, hchars⟩ := List.exists_cons_of_ne_nil hne
  refine ⟨c, cs, ?_, hchars⟩
  have hhead := List.head?_dropWhile_not isLeading
    ((text.toList.dropWhile (· = '/')).rdropWhile (· = '/'))
  rw [← toList_trimPath, hchars, List.head?_cons] at hhead
  simpa using hhead

variable {c : Char}

theorem ne_slash (h : isLeading c = false) : c ≠ '/' := by
  rintro rfl
  cases h

theorem isAbsolute_ofList (hc : c ≠ '/') (cs : List Char) :
    isAbsolute (String.ofList (c :: cs)) = false := by
  have hslash : ('/' == c) = false := by simpa using Ne.symm hc
  unfold isAbsolute Text.startsWith
  rw [String.toList_ofList, String.toList_ofList, Text.isPrefix, hslash]
  rfl

theorem isAbsolute_trimPath (text : String) : isAbsolute (trimPath text) = false := by
  by_cases h : trimPath text = ""
  · rw [h]
    rfl
  · obtain ⟨c, cs, hc, hchars⟩ := trimPath_head h
    rw [← String.ofList_toList (s := trimPath text), hchars]
    exact isAbsolute_ofList (ne_slash hc) cs

theorem splitChars_head (hc : c ≠ '/') (cs : List Char) :
    ∃ seg segs, Text.splitChars '/' (c :: cs) = (c :: seg) :: segs := by
  cases hsplit : Text.splitChars '/' cs with
  | nil => exact absurd hsplit (splitChars_ne_nil '/' cs)
  | cons seg segs =>
    exact ⟨seg, segs, splitChars_prepend (fun hmem => hc (List.mem_singleton.mp hmem).symm) hsplit⟩

/-- A first segment with a character that is neither a dot nor a slash is a name. -/
theorem first_name {s : String} {seg : List Char} {segs : List (List Char)}
    (h : Text.splitChars '/' s.toList = seg :: segs) (hc : c ∈ seg) (hplain : isLeading c = false) :
    names s = String.ofList seg :: (segs.map String.ofList).filter isName ∧
      (".." ∈ segments s ↔ ".." ∈ segs.map String.ofList) := by
  have hother : ∀ t : String, (∀ d ∈ t.toList, isLeading d = true) → String.ofList seg ≠ t := by
    rintro t ht rfl
    rw [String.toList_ofList] at ht
    rw [ht c hc] at hplain
    cases hplain
  have hempty : String.ofList seg ≠ "" := hother "" fun d hd => absurd hd List.not_mem_nil
  have hdot : String.ofList seg ≠ "." := hother "." (by simp [isLeading])
  have hup : String.ofList seg ≠ ".." := hother ".." (by simp [isLeading])
  unfold names segments Text.split
  rw [h, List.map_cons, List.mem_cons]
  refine ⟨List.filter_cons_of_pos (by simp [isName, hempty, hdot]), ?_⟩
  exact ⟨fun hmem => hmem.resolve_left (Ne.symm hup), .inr⟩

/-! ## Runs of dots -/

/-- Dots that run into the first name change it, whatever comes before them. -/
theorem placeFrom_dots {root : List String} {lead body : String} {dots cs : List Char} {c : Char}
    (hlead : lead = "" ∨ ∃ lead', lead = lead' ++ "/") (hdots : dots ≠ []) (hslash : '/' ∉ dots)
    (hc : isLeading c = false) (hbody : body.toList = c :: cs) (hplain : ".." ∉ segments body) :
    placeFrom root (lead ++ (String.ofList dots ++ body)) ≠ root ++ names body := by
  obtain ⟨seg, segs, hsplit⟩ := splitChars_head (ne_slash hc) cs
  rw [← hbody] at hsplit
  have hdotted : Text.splitChars '/' (String.ofList dots ++ body).toList =
      (dots ++ c :: seg) :: segs := by
    rw [String.toList_append, String.toList_ofList]
    exact splitChars_prepend hslash hsplit
  obtain ⟨hnames, hup⟩ := first_name hsplit List.mem_cons_self hc
  obtain ⟨hnames', hup'⟩ := first_name hdotted (List.mem_append_right _ List.mem_cons_self) hc
  have hrelative : isAbsolute (String.ofList dots ++ body) = false := by
    cases dots with
    | nil => exact absurd rfl hdots
    | cons d ds =>
      have hd : d ≠ '/' := fun heq => hslash (heq ▸ List.mem_cons_self)
      have hne : String.ofList (d :: ds) ≠ "" := fun hnil => by
        cases String.ofList_inj.mp hnil
      rw [isAbsolute_append hne]
      exact isAbsolute_ofList hd ds
  intro heq
  rw [placeFrom_append hlead (fun _ => hrelative) (hup'.not.mpr (hup.not.mp hplain)), hnames,
    hnames'] at heq
  have htails := List.append_inj_right' heq (by rw [List.length_cons, List.length_cons])
  have hfirst := String.ofList_inj.mp (List.cons.inj htails).1
  have hlen := congrArg List.length hfirst
  have hpos := List.length_pos_iff.mpr hdots
  rw [List.length_append] at hlen
  omega

theorem split_last_slash (s : String) :
    ∃ lead dots, s = lead ++ String.ofList dots ∧
      (lead = "" ∨ ∃ lead', lead = lead' ++ "/") ∧ '/' ∉ dots := by
  refine ⟨String.ofList (s.toList.rdropWhile (· ≠ '/')), s.toList.rtakeWhile (· ≠ '/'), ?_, ?_, ?_⟩
  · rw [← String.ofList_append, List.rdropWhile_append_rtakeWhile, String.ofList_toList]
  · by_cases hnil : s.toList.rdropWhile (· ≠ '/') = []
    · exact .inl (by rw [hnil])
    · have hlast := List.rdropWhile_last_not _ _ hnil
      have hslash : (s.toList.rdropWhile (· ≠ '/')).getLast hnil = '/' := by simpa using hlast
      refine .inr ⟨String.ofList (s.toList.rdropWhile (· ≠ '/')).dropLast, ?_⟩
      have hconcat := List.dropLast_append_getLast hnil
      rw [hslash] at hconcat
      conv_lhs => rw [← hconcat]
      exact String.ofList_append
  · intro hmem
    have hne := List.mem_rtakeWhile_imp hmem
    simp at hne

/-- A normalized target that never goes up names what the target named if and only if what was taken
away is whole segments that lead back to the root. -/
theorem placeFrom_trimPath {root : List String} (hne : trimPath text ≠ "")
    (hplain : ".." ∉ segments (trimPath text)) :
    placeFrom root (trimPath text) = placeFrom root text ↔
      (leading text = "" ∨ ∃ lead, leading text = lead ++ "/") ∧
        placeFrom root (leading text) = root := by
  obtain ⟨tail, htail, hchars⟩ := trimPath_split hne
  obtain ⟨c, cs, hc, hhead⟩ := trimPath_head hne
  obtain ⟨hnames, hplain'⟩ := @names_slashes (trimPath text) tail htail
  have hsplit : text = leading text ++ (trimPath text ++ String.ofList tail) := by
    refine String.toList_inj.mp ?_
    rw [String.toList_append, String.toList_append, String.toList_ofList, hchars, List.append_assoc]
  have hbody : (trimPath text ++ String.ofList tail).toList = c :: (cs ++ tail) := by
    rw [String.toList_append, String.toList_ofList, hhead]
    rfl
  have hrest : placeFrom root (trimPath text) =
      root ++ names (trimPath text ++ String.ofList tail) := by
    rw [hnames]
    exact placeFrom_plain (isAbsolute_trimPath text) hplain
  rw [hrest]
  by_cases hlead : leading text = "" ∨ ∃ lead, leading text = lead ++ "/"
  · have hrelative : isAbsolute (trimPath text ++ String.ofList tail) = false := by
      rw [isAbsolute_append hne]
      exact isAbsolute_trimPath text
    have hplace := @placeFrom_append root _ _ hlead (fun _ => hrelative) (hplain' hplain)
    rw [← hsplit] at hplace
    rw [hplace, List.append_left_inj]
    exact ⟨fun heq => ⟨hlead, heq.symm⟩, fun h => h.2.symm⟩
  · refine ⟨fun heq => ?_, fun h => absurd h.1 hlead⟩
    obtain ⟨lead, dots, hleading, hlead', hslash⟩ := split_last_slash (leading text)
    have hdots : dots ≠ [] := by
      rintro rfl
      have hempty : leading text = lead := by
        rw [hleading]
        exact String.append_empty
      exact hlead (hempty ▸ hlead')
    rw [hleading, String.append_assoc] at hsplit
    have hne' := @placeFrom_dots root _ _ _ _ _ hlead' hdots hslash hc hbody (hplain' hplain)
    rw [← hsplit] at hne'
    exact absurd heq.symm hne'

/-! ## Lists of targets -/

/-- Nothing is left of a text of dots and slashes, and only of such a one. -/
theorem trimPath_eq_empty : trimPath text = "" ↔ leading text = text := by
  constructor
  · intro h
    have hnil : (trimPath text).toList = [] := by rw [h]; rfl
    rw [toList_trimPath, List.dropWhile_eq_nil_iff] at hnil
    have hright : ∀ c ∈ text.toList.dropWhile (· = '/'), isLeading c = true := by
      intro c hc
      rw [← @List.rdropWhile_append_rtakeWhile _ (· = '/') (text.toList.dropWhile (· = '/')),
        List.mem_append] at hc
      rcases hc with hc | hc
      · exact hnil c hc
      · have hslash : c = '/' := by simpa using List.mem_rtakeWhile_imp hc
        rw [hslash]
        rfl
    have hdrop : text.toList.dropWhile isLeading = [] := by
      rw [← dropWhile_leading, List.dropWhile_eq_nil_iff]
      exact hright
    have hall : text.toList.takeWhile isLeading = text.toList := by
      have hsplit := @List.takeWhile_append_dropWhile _ isLeading text.toList
      rwa [hdrop, List.append_nil] at hsplit
    unfold leading
    rw [hall, String.ofList_toList]
  · intro h
    by_contra hne
    obtain ⟨tail, -, hsplit⟩ := trimPath_split hne
    rw [h] at hsplit
    have hlen := congrArg List.length hsplit
    have hpos := List.length_pos_iff.mpr fun hnil => hne (String.toList_eq_nil_iff.mp hnil)
    simp only [List.length_append] at hlen
    omega

theorem normalizeItems_ok {items : List Val} {paths : List String} :
    normalizeItems items = .ok paths ↔
      (∀ item ∈ items, normalizeTarget item ≠ "" →
        validateRelativeProjectPath (normalizeTarget item) = .ok ()) ∧
        paths = (items.map normalizeTarget).filter (· ≠ "") := by
  induction items generalizing paths with
  | nil =>
    refine ⟨fun h => ?_, fun h => ?_⟩
    · cases h
      exact ⟨fun _ hitem => absurd hitem List.not_mem_nil, rfl⟩
    · rw [h.2]
      rfl
  | cons item items ih =>
    rw [normalizeItems, List.forall_mem_cons, List.map_cons]
    split
    · rename_i hempty
      rw [ih, List.filter_cons_of_neg (by simp [hempty])]
      simp [hempty]
    · rename_i hne
      rw [List.filter_cons_of_pos (by simp [hne]), bind_eq_ok]
      constructor
      · rintro ⟨⟨⟩, hvalid, hrest⟩
        obtain ⟨rest, hfound, hpaths⟩ := bind_eq_ok.mp hrest
        cases hpaths
        obtain ⟨hall, rfl⟩ := ih.mp hfound
        exact ⟨⟨fun _ => hvalid, hall⟩, rfl⟩
      · rintro ⟨⟨hvalid, hall⟩, rfl⟩
        exact ⟨(), hvalid hne, bind_eq_ok.mpr ⟨_, ih.mpr ⟨hall, rfl⟩, rfl⟩⟩

theorem not_refused {target : String} :
    ¬Refused target ↔ (normalizeTarget (.str target) ≠ "" →
      validateRelativeProjectPath (normalizeTarget (.str target)) = .ok ()) := by
  unfold Refused
  rw [not_and]
  refine imp_congr_right fun _ => ?_
  cases validateRelativeProjectPath (normalizeTarget (.str target)) with
  | ok u => simp
  | error e => simp

/-- The paths that come back, when nothing is refused. -/
theorem mem_normalizeTargetFiles {targets paths : List String}
    (h : normalizeTargetFiles (.list (targets.map .str)) = .ok paths) :
    (∀ target ∈ targets, ¬Refused target) ∧
      ∀ path, path ∈ paths ↔
        path ≠ "" ∧ ∃ target ∈ targets, normalizeTarget (.str target) = path := by
  obtain ⟨found, hfound, hpaths⟩ := bind_eq_ok.mp h
  cases hpaths
  obtain ⟨hvalid, rfl⟩ := normalizeItems_ok.mp hfound
  refine ⟨fun target htarget => not_refused.mpr ?_, fun path => ?_⟩
  · exact hvalid _ (List.mem_map_of_mem htarget)
  · rw [List.mem_eraseDups, List.mem_filter, List.map_map, List.mem_map]
    simp [and_comm]

theorem normalizeTargetFiles_isOk {targets : List String}
    (h : ∀ target ∈ targets, ¬Refused target) :
    ∃ paths, normalizeTargetFiles (.list (targets.map .str)) = .ok paths := by
  have hvalid : ∀ item ∈ targets.map Val.str, normalizeTarget item ≠ "" →
      validateRelativeProjectPath (normalizeTarget item) = .ok () := by
    intro item hitem
    obtain ⟨target, htarget, rfl⟩ := List.mem_map.mp hitem
    exact not_refused.mp (h target htarget)
  exact ⟨_, bind_eq_ok.mpr ⟨_, normalizeItems_ok.mpr ⟨hvalid, rfl⟩, rfl⟩⟩

/-- Targets keep the files they name unless one is refused: exactly if what is taken away in front
of each that is not blank is whole segments that lead back to the root. -/
theorem keepsFiles_iff (root targets : List String) :
    KeepsFiles root targets ↔
      (∃ target ∈ targets, Refused target) ∨
        ∀ target ∈ targets, cleaned target = "" ∨ Kept root (cleaned target) := by
  by_cases hrefused : ∃ target ∈ targets, Refused target
  · refine ⟨fun _ => .inl hrefused, fun _ paths hpaths => ?_⟩
    obtain ⟨target, htarget, h⟩ := hrefused
    exact absurd h ((mem_normalizeTargetFiles hpaths).1 target htarget)
  · have hnone : ∀ target ∈ targets, ¬Refused target := fun target htarget h =>
      hrefused ⟨target, htarget, h⟩
    obtain ⟨paths, hpaths⟩ := normalizeTargetFiles_isOk hnone
    have hmem := (mem_normalizeTargetFiles hpaths).2
    -- one target at a time
    have hplace : ∀ target ∈ targets, trimPath (cleaned target) ≠ "" →
        (placeFrom root (trimPath (cleaned target)) = placeFrom root (cleaned target) ↔
          Kept root (cleaned target)) := by
      intro target htarget hne
      have hvalid := not_refused.mp (hnone target htarget)
      rw [normalizeTarget_str] at hvalid
      rw [placeFrom_trimPath hne (plain_of_valid (hvalid hne))]
      exact ⟨fun h => ⟨fun heq => hne (trimPath_eq_empty.mpr heq), h⟩, fun h => h.2⟩
    constructor
    · intro h
      refine .inr fun target htarget => ?_
      by_cases hblank : cleaned target = ""
      · exact .inl hblank
      · obtain ⟨hin, -, hsame⟩ := h paths hpaths target htarget hblank
        rw [normalizeTarget_str] at hsame hin
        exact .inr ((hplace target htarget ((hmem _).mp hin).1).mp hsame)
    · rintro (h | h) paths' hpaths' target htarget hblank
      · exact absurd h hrefused
      · cases hpaths.symm.trans hpaths'
        have hkept := (h target htarget).resolve_left hblank
        have hne : trimPath (cleaned target) ≠ "" := fun heq => hkept.1 (trimPath_eq_empty.mp heq)
        rw [normalizeTarget_str]
        refine ⟨(hmem _).mpr ⟨hne, target, htarget, normalizeTarget_str target⟩,
          isAbsolute_trimPath _, (hplace target htarget hne).mpr hkept⟩

/-- A file with a leading dot comes back as one without. -/
theorem dot_file_renamed : ¬KeepsFiles ["srv", "project"] [".gitignore"] := by
  intro h
  have hpaths : normalizeTargetFiles (.list [.str ".gitignore"]) = .ok ["gitignore"] := by
    decide +kernel
  have hfacts : cleaned ".gitignore" = ".gitignore" ∧
      normalizeTarget (.str ".gitignore") = "gitignore" ∧
        placeFrom ["srv", "project"] "gitignore" ≠ placeFrom ["srv", "project"] ".gitignore" := by
    decide +kernel
  obtain ⟨hcleaned, htarget, hplace⟩ := hfacts
  obtain ⟨-, -, hsame⟩ := h _ hpaths ".gitignore" List.mem_cons_self (by rw [hcleaned]; decide)
  rw [htarget, hcleaned] at hsame
  exact hplace hsame

end Boundary
end ZeroRuntime
