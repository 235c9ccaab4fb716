import ZeroRuntime.Lib.Text

/-!
# ZeroRuntime.Lib.PathText

Paths that are written down as texts, and what they mean: segments between slashes, of which `.`
and empty ones stay in place and `..` goes back up.

* `resolve s`: the names that are left; `..` only stands where there is nothing to go up from.
* `LiesIn s a`: `s` names the place of `a` or one below it.
* `placeFrom dir s`: the place a text names when it is read from a directory.
* `placeFrom_append`: a text is read from where the part before its last slash leads to.
* `liesIn_of_prefix`: a text that goes on after `a` and a slash lies in `a`, if nothing goes up.
-/

namespace ZeroRuntime
namespace Lib
namespace PathText

def segments (s : String) : List String := Text.split '/' s

def isAbsolute (s : String) : Bool := Text.startsWith s "/"

/-- One segment further, from the place whose names are stacked up in `stack`. -/
def walk (absolute : Bool) (stack : List String) (segment : String) : List String :=
  if segment = "" ∨ segment = "." then stack
  else if segment = ".." then
    match stack with
    | [] => if absolute then [] else [".."]
    | top :: rest => if top = ".." then ".." :: top :: rest else rest
  else segment :: stack

/-- The names of a place, from the top. -/
def resolve (s : String) : List String :=
  ((segments s).foldl (walk (isAbsolute s)) []).reverse

/-- `s` names the place of `a` or one below it. -/
def LiesIn (s a : String) : Prop :=
  isAbsolute s = isAbsolute a ∧ resolve a <+: resolve s ∧
    ((resolve s).drop (resolve a).length).head? ≠ some ".."

instance (s a : String) : Decidable (LiesIn s a) := by
  unfold LiesIn
  infer_instance

/-! ## Texts without a way up -/

/-- A segment that names something. -/
def isName (segment : String) : Bool := segment ≠ "" && segment ≠ "."

theorem walk_skip {segment : String} (h : segment = "" ∨ segment = ".") (absolute : Bool)
    (stack : List String) : walk absolute stack segment = stack := by
  unfold walk
  rw [if_pos h]

theorem walk_name {segment : String} (h : ¬(segment = "" ∨ segment = ".")) (hup : segment ≠ "..")
    (absolute : Bool) (stack : List String) : walk absolute stack segment = segment :: stack := by
  unfold walk
  rw [if_neg h, if_neg hup]

theorem foldl_walk_plain {segs stack : List String} {absolute : Bool} (h : ".." ∉ segs) :
    segs.foldl (walk absolute) stack = (segs.filter isName).reverse ++ stack := by
  induction segs generalizing stack with
  | nil => rfl
  | cons seg segs ih =>
    rw [List.mem_cons, not_or] at h
    rw [List.foldl_cons, ih h.2]
    by_cases hname : seg = "" ∨ seg = "."
    · have hskip : isName seg = false := by
        rcases hname with rfl | rfl <;> rfl
      rw [walk_skip hname, List.filter_cons_of_neg (by simp [hskip])]
    · have hkeep : isName seg = true := by
        unfold isName
        simpa using not_or.mp hname
      rw [walk_name hname (Ne.symm h.1), List.filter_cons_of_pos hkeep]
      simp

theorem resolve_plain {s : String} (h : ".." ∉ segments s) :
    resolve s = (segments s).filter isName := by
  unfold resolve
  rw [foldl_walk_plain h]
  simp

theorem splitChars_append (sep : Char) (xs ys : List Char) :
    Text.splitChars sep (xs ++ sep :: ys) = Text.splitChars sep xs ++ Text.splitChars sep ys := by
  induction xs with
  | nil => simp [Text.splitChars]
  | cons x xs ih =>
    rw [List.cons_append]
    by_cases hx : x = sep
    · rw [Text.splitChars, if_pos hx, ih, Text.splitChars, if_pos hx, List.cons_append]
    · rw [Text.splitChars, if_neg hx, ih, Text.splitChars, if_neg hx]
      cases hsplit : Text.splitChars sep xs with
      | nil =>
        exfalso
        cases xs with
        | nil => cases hsplit
        | cons y ys =>
          rw [Text.splitChars] at hsplit
          split at hsplit
          · cases hsplit
          · split at hsplit <;> cases hsplit
      | cons w ws => rfl

/-- The segments of a text that goes on after a slash. -/
theorem segments_append (a t : String) :
    segments (a ++ "/" ++ t) = segments a ++ segments t := by
  have hslash : ("/" : String).toList = ['/'] := rfl
  unfold segments Text.split
  rw [← List.map_append, ← splitChars_append, String.toList_append, String.toList_append, hslash,
    List.append_assoc]
  rfl

theorem isPrefix_iff {xs ys : List Char} : Text.isPrefix xs ys = true ↔ xs <+: ys := by
  induction xs generalizing ys with
  | nil => simp [Text.isPrefix]
  | cons x xs ih =>
    cases ys with
    | nil => simp [Text.isPrefix]
    | cons y ys => simp [Text.isPrefix, ih]

theorem startsWith_iff {s p : String} : Text.startsWith s p = true ↔ ∃ t, s = p ++ t := by
  unfold Text.startsWith
  rw [isPrefix_iff]
  constructor
  · rintro ⟨t, ht⟩
    refine ⟨String.ofList t, String.toList_inj.mp ?_⟩
    rw [String.toList_append, String.toList_ofList, ht]
  · rintro ⟨t, rfl⟩
    exact ⟨t.toList, (String.toList_append).symm⟩

theorem liesIn_refl (s : String) : LiesIn s s := by
  refine ⟨rfl, List.prefix_refl _, ?_⟩
  rw [List.drop_length]
  simp

/-- What goes on after `a` and a slash and never goes up lies in `a`. -/
theorem liesIn_of_prefix {s a : String} (hplain : ".." ∉ segments s)
    (hrelative : isAbsolute s = false) (h : Text.startsWith s (a ++ "/") = true) : LiesIn s a := by
  obtain ⟨t, rfl⟩ := startsWith_iff.mp h
  have hsegs := segments_append a t
  rw [hsegs, List.mem_append, not_or] at hplain
  have ha : isAbsolute a = false := by
    rw [Bool.eq_false_iff] at hrelative ⊢
    intro habs
    obtain ⟨u, rfl⟩ := startsWith_iff.mp habs
    refine hrelative (startsWith_iff.mpr ⟨u ++ "/" ++ t, ?_⟩)
    simp only [String.append_assoc]
  have hresolve : resolve (a ++ "/" ++ t) = resolve a ++ (segments t).filter isName := by
    have hall : ".." ∉ segments (a ++ "/" ++ t) := by
      rw [hsegs, List.mem_append]
      exact not_or.mpr hplain
    rw [resolve_plain hall, resolve_plain hplain.1, hsegs, List.filter_append]
  refine ⟨hrelative.trans ha.symm, ?_, ?_⟩
  · rw [hresolve]
    exact List.prefix_append _ _
  · rw [hresolve, List.drop_left]
    intro hup
    exact hplain.2 (List.mem_filter.mp (List.mem_of_head? hup)).1

/-! ## Texts read from a directory -/

/-- The place a text names when it is read from a directory. -/
def placeFrom (dir : List String) (s : String) : List String :=
  if isAbsolute s then resolve s else ((segments s).foldl (walk true) dir.reverse).reverse

theorem placeFrom_plain {dir : List String} {s : String} (hrelative : isAbsolute s = false)
    (hplain : ".." ∉ segments s) : placeFrom dir s = dir ++ (segments s).filter isName := by
  unfold placeFrom
  rw [hrelative, if_neg Bool.false_ne_true, foldl_walk_plain hplain]
  simp

/-- A text goes on after its first segment with a slash and the others. -/
theorem splitChars_cons {sep : Char} {cs seg : List Char} {segs : List (List Char)}
    (h : Text.splitChars sep cs = seg :: segs) (hsegs : segs ≠ []) :
    ∃ rest, cs = seg ++ sep :: rest ∧ Text.splitChars sep rest = segs := by
  induction cs generalizing seg with
  | nil =>
    rw [Text.splitChars] at h
    cases h
    exact absurd rfl hsegs
  | cons c cs ih =>
    rw [Text.splitChars] at h
    split at h
    · rename_i hsep
      cases h
      exact ⟨cs, by rw [hsep]; rfl, rfl⟩
    · split at h
      · cases h
        exact absurd rfl hsegs
      · rename_i w ws hsplit
        cases h
        obtain ⟨rest, rfl, hrest⟩ := ih hsplit
        exact ⟨rest, rfl, hrest⟩

/-! ## What stands before and after -/

theorem splitChars_ne_nil (sep : Char) (cs : List Char) : Text.splitChars sep cs ≠ [] := by
  cases cs with
  | nil => exact List.cons_ne_nil _ _
  | cons c cs =>
    rw [Text.splitChars]
    split
    · exact List.cons_ne_nil _ _
    · split <;> exact List.cons_ne_nil _ _

/-- What stands before a text, up to its first separator, stands before its first segment. -/
theorem splitChars_prepend {sep : Char} {xs cs seg : List Char} {segs : List (List Char)}
    (hxs : sep ∉ xs) (h : Text.splitChars sep cs = seg :: segs) :
    Text.splitChars sep (xs ++ cs) = (xs ++ seg) :: segs := by
  induction xs with
  | nil => exact h
  | cons x xs ih =>
    rw [List.mem_cons, not_or] at hxs
    rw [List.cons_append, Text.splitChars, if_neg (Ne.symm hxs.1), ih hxs.2]
    rfl

/-- What stands after a text, from its last separator on, stands after its last segment. -/
theorem splitChars_concat {sep x : Char} (hx : x ≠ sep) (cs : List Char) :
    ∃ segs seg, Text.splitChars sep cs = segs ++ [seg] ∧
      Text.splitChars sep (cs ++ [x]) = segs ++ [seg ++ [x]] := by
  induction cs with
  | nil => exact ⟨[], [], rfl, by simp [Text.splitChars, hx]⟩
  | cons c cs ih =>
    obtain ⟨segs, seg, hcs, hconcat⟩ := ih
    rw [List.cons_append]
    by_cases hc : c = sep
    · refine ⟨[] :: segs, seg, ?_, ?_⟩
      · rw [Text.splitChars, if_pos hc, hcs, List.cons_append]
      · rw [Text.splitChars, if_pos hc, hconcat, List.cons_append]
    · cases segs with
      | nil =>
        refine ⟨[], c :: seg, ?_, ?_⟩
        · rw [Text.splitChars, if_neg hc, hcs]
          rfl
        · rw [Text.splitChars, if_neg hc, hconcat]
          rfl
      | cons w ws =>
        refine ⟨(c :: w) :: ws, seg, ?_, ?_⟩
        · rw [Text.splitChars, if_neg hc, hcs]
          rfl
        · rw [Text.splitChars, if_neg hc, hconcat]
          rfl

/-- The names in a text. -/
def names (s : String) : List String := (segments s).filter isName

theorem segments_empty : segments "" = [""] := rfl

theorem isAbsolute_append {a : String} (h : a ≠ "") (t : String) :
    isAbsolute (a ++ t) = isAbsolute a := by
  unfold isAbsolute Text.startsWith
  rw [String.toList_append]
  cases hchars : a.toList with
  | nil => exact absurd (String.toList_eq_nil_iff.mp hchars) h
  | cons c cs => rfl

/-- Slashes at the end name nothing. -/
theorem segments_slash (s : String) : segments (s ++ "/") = segments s ++ [""] := by
  have h := segments_append s ""
  rwa [String.append_empty, segments_empty] at h

/-- A text is read from where the part before its last slash leads to, if it does not go up. -/
theorem placeFrom_append {dir : List String} {lead s : String}
    (hlead : lead = "" ∨ ∃ lead', lead = lead' ++ "/") (hs : lead = "" → isAbsolute s = false)
    (hplain : ".." ∉ segments s) : placeFrom dir (lead ++ s) = placeFrom dir lead ++ names s := by
  unfold names
  rcases hlead with rfl | ⟨lead', rfl⟩
  · have hempty : placeFrom dir "" = dir := by
      rw [placeFrom_plain rfl (by decide)]
      exact List.append_nil dir
    rw [String.empty_append, placeFrom_plain (hs rfl) hplain, hempty]
  · have hne : lead' ++ "/" ≠ "" := by
      intro h
      have hlen := congrArg String.toList h
      rw [String.toList_append] at hlen
      exact List.append_ne_nil_of_right_ne_nil _ (by decide) hlen
    have hskip : ∀ absolute stack, walk absolute stack "" = stack := fun absolute stack =>
      walk_skip (.inl rfl) absolute stack
    unfold placeFrom resolve
    rw [isAbsolute_append hne, segments_append, segments_slash]
    simp only [List.foldl_append, foldl_walk_plain hplain, List.foldl_cons, List.foldl_nil, hskip,
      List.reverse_append, List.reverse_reverse]
    split <;> rfl

end PathText
end Lib
end ZeroRuntime
