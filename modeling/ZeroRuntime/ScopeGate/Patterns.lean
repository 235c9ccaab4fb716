import ZeroRuntime.Lib.PathPattern
import ZeroRuntime.ScopeGate.Model

/-!
# ZeroRuntime.ScopeGate.Patterns

What the gate compares: texts all of whose segments say something, as patterns and as places.

* `named_normalizePath`: a normalized text is such a text, or is empty.
* `matchText_iff`: comparing two of them is matching the place of the one against the pattern of
  the other.
* `compared` is what paths and patterns come down to; `compared_wrap`: every such text is what some
  pattern comes down to.
-/

namespace ZeroRuntime
namespace ScopeGate

open Lib PathText

/-! ## Comparing -/

theorem dropEnd_append {t suf : String} : dropEnd suf.toList.length (t ++ suf) = t := by
  unfold dropEnd
  rw [String.toList_append, List.length_append, Nat.add_sub_cancel, List.take_left,
    String.ofList_toList]

variable {s : String}

theorem stripRight_named (h : Named s) : Text.stripRight '/' s = s := by
  obtain ⟨hne, -, hlast, -⟩ := named_iff.mp h
  unfold Text.stripRight
  obtain ⟨front, last, hchars⟩ := (List.eq_nil_or_concat s.toList).resolve_left hne
  rw [List.concat_eq_append] at hchars
  rw [hchars, List.getLast?_concat] at hlast
  rw [hchars, List.rdropWhile_concat_neg, ← hchars, String.ofList_toList]
  simpa using fun h => hlast (congrArg some h)

theorem trimSlashes_named (h : Named s) : trimSlashes ('/' :: s.toList) = s.toList := by
  have hright := congrArg String.toList (stripRight_named h)
  unfold Text.stripRight at hright
  rw [String.toList_ofList] at hright
  obtain ⟨hne, hhead, -, -⟩ := named_iff.mp h
  have hleft : (('/' :: s.toList).dropWhile fun c => c = '/') = s.toList := by
    rw [List.dropWhile_cons_of_pos (by decide)]
    cases hchars : s.toList with
    | nil => exact absurd hchars hne
    | cons c cs =>
      rw [hchars] at hhead
      rw [List.dropWhile_cons_of_neg]
      simpa using fun h => hhead (congrArg some h)
  unfold trimSlashes
  rw [hleft, hright]

theorem trimSlashes_slash (h : Named s) : trimSlashes (s.toList ++ ['/']) = s.toList := by
  have hright := congrArg String.toList (stripRight_named h)
  unfold Text.stripRight at hright
  rw [String.toList_ofList] at hright
  obtain ⟨hne, hhead, -, -⟩ := named_iff.mp h
  unfold trimSlashes
  cases hchars : s.toList with
  | nil => exact absurd hchars hne
  | cons c cs =>
    rw [hchars] at hhead hright
    rw [List.cons_append, List.dropWhile_cons_of_neg (by simpa using fun h => hhead (congrArg some h)),
      ← List.cons_append, List.rdropWhile_concat_pos _ _ _ (by decide), hright]

variable {path : String}

theorem inStem_iff {stem : String} : inStem path stem = true ↔ segments stem <+: segments path := by
  unfold inStem
  rw [Bool.or_eq_true, decide_eq_true_iff, startsWith_slash_iff]
  constructor
  · rintro (rfl | ⟨rest, -, h⟩)
    · exact List.prefix_refl _
    · rw [h]
      exact List.prefix_append _ _
  · rintro ⟨rest, h⟩
    by_cases hrest : rest = []
    · rw [hrest, List.append_nil] at h
      exact .inl (segments_injective h.symm)
    · exact .inr ⟨rest, hrest, h.symm⟩

theorem segments_stem {names : List String} {last : String} (h : segments s = names ++ [last])
    (hne : names ≠ []) :
    segments (joinNames names) = names ∧ s = joinNames names ++ "/" ++ last := by
  have hslash : ∀ n ∈ names, '/' ∉ n.toList := fun n hn =>
    segments_noSlash (h ▸ List.mem_append_left _ hn)
  refine ⟨segments_joinNames hne hslash, ?_⟩
  rw [← joinNames_segments s, h, joinNames_append hne (List.cons_ne_nil _ _), joinNames_singleton]

theorem named_stem {names : List String} {last : String} (hs : Named s)
    (h : segments s = names ++ [last]) (hne : names ≠ []) : Named (joinNames names) := by
  unfold Named
  rw [(segments_stem h hne).1]
  exact fun n hn => hs n (h ▸ List.mem_append_left _ hn)

/-- What is left after a stem and a slash. -/
theorem remainder_append {stem rest : String} (hrest : Named rest) :
    trimSlashes ((stem ++ "/" ++ rest).toList.drop stem.toList.length) = rest.toList := by
  have hchars : (stem ++ "/" ++ rest).toList = stem.toList ++ '/' :: rest.toList := by
    rw [String.toList_append, String.toList_append, List.append_assoc]
    rfl
  rw [hchars, List.drop_left, trimSlashes_named hrest]

/-- A place directly in another is one whose text goes on with one name. -/
theorem level_iff {stem : String} (hpath : Named path) :
    (inStem path stem && (trimSlashes (path.toList.drop stem.toList.length) ≠ [] &&
        '/' ∉ trimSlashes (path.toList.drop stem.toList.length))) = true ↔
      ∃ name, segments path = segments stem ++ [name] := by
  rw [Bool.and_eq_true, Bool.and_eq_true, inStem_iff, decide_eq_true_iff, decide_eq_true_iff]
  constructor
  · rintro ⟨⟨rest, hsegs⟩, hne, hslash⟩
    by_cases hrest : rest = []
    · exfalso
      rw [hrest, List.append_nil] at hsegs
      rw [segments_injective hsegs, List.drop_length] at hne
      exact hne rfl
    · have hname : Named (joinNames rest) := by
        have hall : ∀ n ∈ rest, n ∈ segments path := fun n hn =>
          hsegs ▸ List.mem_append_right _ hn
        exact named_joinNames hrest fun n hn => ⟨hpath n (hall n hn), segments_noSlash (hall n hn)⟩
      have htext : path = stem ++ "/" ++ joinNames rest := by
        rw [← joinNames_segments path, ← hsegs, joinNames_append (segments_ne_nil stem) hrest,
          joinNames_segments]
      rw [htext, remainder_append hname] at hslash
      refine ⟨joinNames rest, ?_⟩
      rw [htext, segments_append, segments_name hslash]
  · rintro ⟨name, hsegs⟩
    have hmem : name ∈ segments path := hsegs ▸ List.mem_append_right _ List.mem_cons_self
    have hslash := segments_noSlash hmem
    have hname : Named name := by
      unfold Named
      rw [segments_name hslash, List.forall_mem_singleton]
      exact hpath name hmem
    have htext : path = stem ++ "/" ++ name := by
      rw [← joinNames_segments path, hsegs,
        joinNames_append (segments_ne_nil stem) (List.cons_ne_nil _ _), joinNames_segments,
        joinNames_singleton]
    rw [hsegs]
    refine ⟨List.prefix_append _ _, ?_⟩
    rw [htext, remainder_append hname]
    exact ⟨(named_iff.mp hname).1, hslash⟩

/-- Comparing texts is matching places against patterns. -/
theorem matchText_iff {pattern : String} (hpath : Named path) (hpattern : Named pattern) :
    matchText path pattern = true ↔ (Pattern.read pattern).Matches (segments path) := by
  have htree : Text.endsWith pattern "/**" = true ↔
      ∃ names, names ≠ [] ∧ segments pattern = names ++ ["**"] :=
    @endsWith_slash_iff pattern "**" (by decide)
  have hlevel : Text.endsWith pattern "/*" = true ↔
      ∃ names, names ≠ [] ∧ segments pattern = names ++ ["*"] :=
    @endsWith_slash_iff pattern "*" (by decide)
  unfold matchText
  rcases Pattern.read_cases pattern with ⟨names, hne, hsegs, hread⟩ | ⟨names, hne, hsegs, hread⟩ |
    ⟨hother, hread⟩
  · obtain ⟨hstem, htext⟩ := segments_stem hsegs hne
    rw [if_pos (htree.mpr ⟨names, hne, hsegs⟩), hread]
    have hdrop : dropEnd 3 pattern = joinNames names := by
      rw [htext, String.append_assoc]
      exact @dropEnd_append _ "/**"
    rw [hdrop, stripRight_named (named_stem hpattern hsegs hne), inStem_iff, hstem]
    rfl
  · obtain ⟨hstem, htext⟩ := segments_stem hsegs hne
    have hnotTree : ¬ Text.endsWith pattern "/**" = true := by
      rw [htree]
      rintro ⟨names', -, hsegs'⟩
      have hlast := congrArg List.getLast? (hsegs.symm.trans hsegs')
      rw [List.getLast?_concat, List.getLast?_concat] at hlast
      exact absurd hlast (by decide)
    rw [if_neg hnotTree, if_pos (hlevel.mpr ⟨names, hne, hsegs⟩), hread]
    have hdrop : dropEnd 2 pattern = joinNames names := by
      rw [htext, String.append_assoc]
      exact @dropEnd_append _ "/*"
    dsimp only
    rw [hdrop, stripRight_named (named_stem hpattern hsegs hne), level_iff hpath, hstem]
    rfl
  · rw [if_neg, if_neg, hread, decide_eq_true_iff]
    · exact ⟨fun h => congrArg segments h, segments_injective⟩
    · rw [hlevel]
      rintro ⟨names, hne, hsegs⟩
      exact (hother names hne).2 hsegs
    · rw [htree]
      rintro ⟨names, hne, hsegs⟩
      exact (hother names hne).1 hsegs

/-! ## Normalizing -/

theorem collapse_head (c : Char) (cs : List Char) : ∃ ds, collapse (c :: cs) = c :: ds := by
  induction cs generalizing c with
  | nil => exact ⟨[], rfl⟩
  | cons d cs ih =>
    rw [collapse]
    split
    · rename_i hboth
      obtain ⟨ds, h⟩ := ih d
      exact ⟨ds, by rw [h, hboth.1, hboth.2]⟩
    · exact ⟨_, rfl⟩

variable {cs : List Char}

theorem double_cons {c d : Char} (h : ['/', '/'] <:+: c :: d :: cs) :
    (c = '/' ∧ d = '/') ∨ ['/', '/'] <:+: d :: cs := by
  rcases List.infix_cons_iff.mp h with hprefix | hinfix
  · obtain ⟨rfl, hrest⟩ := List.cons_prefix_cons.mp hprefix
    obtain ⟨rfl, -⟩ := List.cons_prefix_cons.mp hrest
    exact .inl ⟨rfl, rfl⟩
  · exact .inr hinfix

theorem not_double_collapse (cs : List Char) : ¬['/', '/'] <:+: collapse cs := by
  induction cs with
  | nil =>
    intro h
    cases List.infix_nil.mp h
  | cons c cs ih =>
    cases cs with
    | nil =>
      intro h
      have hlength := h.length_le
      simp [collapse] at hlength
    | cons d cs =>
      rw [collapse]
      split
      · exact ih
      · rename_i hboth
        obtain ⟨ds, hds⟩ := collapse_head d cs
        rw [hds] at ih ⊢
        intro h
        rcases double_cons h with h | h
        · exact hboth h
        · exact ih h

theorem collapse_eq_self (h : ¬['/', '/'] <:+: cs) : collapse cs = cs := by
  induction cs with
  | nil => rfl
  | cons c cs ih =>
    cases cs with
    | nil => rfl
    | cons d cs =>
      rw [collapse, if_neg, ih fun hinfix => h (List.infix_cons hinfix)]
      rintro ⟨rfl, rfl⟩
      exact h ⟨[], cs, rfl⟩

theorem dropDrive_suffix (cs : List Char) : dropDrive cs <:+ cs := by
  unfold dropDrive
  split
  · exact ⟨[_, ':', '/'], rfl⟩
  · exact List.suffix_refl _

theorem dropDot_suffix (cs : List Char) : dropDot cs <:+ cs := by
  unfold dropDot
  split
  · exact ⟨['.', '/'], rfl⟩
  · exact List.suffix_refl _

theorem trimSlashes_within (cs : List Char) : trimSlashes cs <:+: cs := by
  unfold trimSlashes
  exact (List.rdropWhile_prefix _ _).isInfix.trans (List.dropWhile_suffix _).isInfix

theorem trimSlashes_ends (cs : List Char) :
    (trimSlashes cs).head? ≠ some '/' ∧ (trimSlashes cs).getLast? ≠ some '/' := by
  unfold trimSlashes
  constructor
  · intro h
    obtain ⟨rest, hrest⟩ := List.rdropWhile_prefix (fun c => c = '/')
      (cs.dropWhile fun c => c = '/')
    have hhead := List.head?_dropWhile_not (fun c : Char => c = '/') cs
    rw [← hrest, List.head?_append, h] at hhead
    have hslash : decide ('/' = '/') = false := hhead
    exact absurd hslash (by decide)
  · intro h
    obtain ⟨front, hfront⟩ := List.getLast?_eq_some_iff.mp h
    have hlast := List.rdropWhile_last_not (fun c : Char => c = '/')
      (cs.dropWhile fun c => c = '/')
      (by rw [hfront]; exact List.append_ne_nil_of_right_ne_nil _ (List.cons_ne_nil _ _))
    simp only [hfront, List.getLast_append_singleton, decide_true, not_true] at hlast

/-- A normalized text is empty, or all its segments say something. -/
theorem named_normalizePath (h : normalizePath path ≠ "") : Named (normalizePath path) := by
  unfold normalizePath at h ⊢
  rw [named_iff, String.toList_ofList]
  unfold normalizeChars at h ⊢
  generalize (Text.stripChars path.toList).map _ = cs at h ⊢
  obtain ⟨hhead, hlast⟩ := trimSlashes_ends (dropDot (dropDrive (collapse cs)))
  refine ⟨fun hnil => h ?_, hhead, hlast, fun hdouble => ?_⟩
  · rw [hnil]
  · refine not_double_collapse cs (hdouble.trans ?_)
    exact (trimSlashes_within _).trans
      ((dropDot_suffix _).isInfix.trans (dropDrive_suffix _).isInfix)

@[irreducible] def compared (text : String) : String := normalizePath (normalizePath text)

theorem compared_eq (text : String) : compared text = normalizePath (normalizePath text) := by
  unfold compared
  rfl

variable {text : String}

theorem named_compared (h : compared text ≠ "") : Named (compared text) := by
  rw [compared_eq] at h ⊢
  exact named_normalizePath h

theorem compared_of_empty (h : normalizePath text = "") : compared text = "" := by
  rw [compared_eq, h]
  rfl

theorem compared_empty : compared "" = "" := compared_of_empty rfl

theorem normalizePath_strip (text : String) :
    normalizePath (Text.strip text) = normalizePath text := by
  have hagain := congrArg String.toList (Text.strip_strip text)
  unfold Text.strip at hagain
  rw [String.toList_ofList, String.toList_ofList] at hagain
  unfold normalizePath normalizeChars Text.strip
  rw [String.toList_ofList, hagain]

/-- A pattern that a text is normalized to, whatever it begins or ends with. -/
def wrap (text : String) : String := "c:/d:/" ++ text ++ "/ /"

/-- A text that can stand in a pattern. -/
structure Plain (text : String) : Prop where
  named : Named text
  forward : '\\' ∉ text.toList
  dotted : ¬ "./".toList <+: text.toList ++ ['/']

theorem not_double_append {xs ys : List Char} (hx : ¬['/', '/'] <:+: xs)
    (hy : ¬['/', '/'] <:+: ys) (h : xs.getLast? ≠ some '/' ∨ ys.head? ≠ some '/') :
    ¬['/', '/'] <:+: xs ++ ys := by
  induction xs with
  | nil => exact hy
  | cons c xs ih =>
    cases xs with
    | nil =>
      cases ys with
      | nil => exact hx
      | cons d ys =>
        intro hdouble
        rcases double_cons hdouble with ⟨rfl, rfl⟩ | hdouble
        · exact h.elim (fun h => h rfl) fun h => h rfl
        · exact hy hdouble
    | cons d xs =>
      intro hdouble
      rcases double_cons hdouble with ⟨rfl, rfl⟩ | hdouble
      · exact hx ⟨[], xs, rfl⟩
      · refine ih (fun hinfix => hx (List.infix_cons hinfix)) ?_ hdouble
        rwa [List.getLast?_cons_cons] at h

/-- Nothing is to be stripped, replaced or collapsed. -/
theorem normalizeChars_tidy (hstrip : Text.stripChars cs = cs) (hforward : '\\' ∉ cs)
    (hdouble : ¬['/', '/'] <:+: cs) : normalizeChars cs = trimSlashes (dropDot (dropDrive cs)) := by
  have hmap : (cs.map fun c => if c = '\\' then '/' else c) = cs := by
    refine (List.map_congr_left fun c hc => ?_).trans (List.map_id cs)
    rw [if_neg]
    · rfl
    · rintro rfl
      exact hforward hc
  unfold normalizeChars
  rw [hstrip, hmap, collapse_eq_self hdouble]

theorem stripChars_ends {c d : Char} (cs : List Char) (hc : Text.isSpace c = false)
    (hd : Text.isSpace d = false) : Text.stripChars (c :: cs ++ [d]) = c :: cs ++ [d] := by
  rw [Text.stripChars_eq_self, List.cons_append,
    List.dropWhile_cons_of_neg (by rw [hc]; exact Bool.false_ne_true), ← List.cons_append,
    List.rdropWhile_concat_neg _ _ _ (by rw [hd]; exact Bool.false_ne_true)]
  exact ⟨rfl, rfl⟩

theorem trimSlashes_concat {c d : Char} (cs : List Char) (hc : c ≠ '/') (hd : d ≠ '/') :
    trimSlashes (c :: cs ++ [d, '/']) = c :: cs ++ [d] := by
  unfold trimSlashes
  rw [List.cons_append, List.dropWhile_cons_of_neg (by simpa using hc)]
  have happend : c :: (cs ++ [d, '/']) = (c :: cs ++ [d]) ++ ['/'] := by
    rw [List.append_assoc, List.cons_append]
    rfl
  rw [happend, List.rdropWhile_concat_pos _ _ _ (by decide),
    List.rdropWhile_concat_neg _ _ _ (by simpa using hd)]

theorem compared_wrap (h : Plain text) : compared (wrap text) = text := by
  obtain ⟨hne, hhead, hlast, hdouble⟩ := named_iff.mp h.named
  have hforward := h.forward
  have hdotted := h.dotted
  have hchars : (wrap text).toList = 'c' :: ':' :: '/' :: 'd' :: ':' :: '/' ::
      (text.toList ++ ['/', ' ', '/']) := by
    unfold wrap
    rw [String.toList_append, String.toList_append, List.append_assoc]
    rfl
  have hbody : ∀ rest : List Char, ¬['/', '/'] <:+: '/' :: rest →
      ¬['/', '/'] <:+: 'd' :: ':' :: '/' :: (text.toList ++ '/' :: rest) := by
    intro rest hrest
    have hfront : ¬['/', '/'] <:+: ['d', ':', '/'] := by decide
    refine not_double_append hfront (not_double_append hdouble hrest (.inl hlast)) (.inr ?_)
    change (text.toList ++ '/' :: rest).head? ≠ some '/'
    rwa [List.head?_append_of_ne_nil _ hne]
  -- the first time, the drive and the last slash go
  have hfirst : normalizeChars (wrap text).toList =
      'd' :: ':' :: '/' :: (text.toList ++ ['/', ' ']) := by
    rw [hchars]
    have hback : '\\' ∉ 'c' :: ':' :: '/' :: 'd' :: ':' :: '/' ::
        (text.toList ++ ['/', ' ', '/']) := by
      simp [hforward]
    have hsingle : ¬['/', '/'] <:+: 'c' :: ':' :: '/' :: 'd' :: ':' :: '/' ::
        (text.toList ++ ['/', ' ', '/']) := by
      have hfront : ¬['/', '/'] <:+: ['c', ':', '/'] := by decide
      exact not_double_append hfront (hbody [' ', '/'] (by decide)) (.inr (by simp))
    have hstrip := stripChars_ends (c := 'c') (d := '/')
      (':' :: '/' :: 'd' :: ':' :: '/' :: (text.toList ++ ['/', ' '])) (by decide) (by decide)
    simp only [List.cons_append, List.append_assoc, List.nil_append] at hstrip
    rw [normalizeChars_tidy hstrip hback hsingle]
    change trimSlashes ('d' :: ':' :: '/' :: (text.toList ++ ['/', ' ', '/'])) = _
    have htrim := trimSlashes_concat (c := 'd') (d := ' ') (':' :: '/' :: (text.toList ++ ['/']))
      (by decide) (by decide)
    simp only [List.cons_append, List.append_assoc, List.nil_append] at htrim
    exact htrim
  -- then the space is stripped
  have hstripped : (Text.strip (normalizePath (wrap text))).toList =
      'd' :: ':' :: '/' :: (text.toList ++ ['/']) := by
    unfold Text.strip normalizePath
    rw [String.toList_ofList, String.toList_ofList, hfirst, Text.stripChars_eq,
      List.dropWhile_cons_of_neg (by decide)]
    have hsplit : 'd' :: ':' :: '/' :: (text.toList ++ ['/', ' ']) =
        ('d' :: ':' :: '/' :: (text.toList ++ ['/'])) ++ [' '] := by
      simp only [List.cons_append, List.append_assoc, List.nil_append]
    rw [hsplit, List.rdropWhile_concat_pos _ _ _ (by decide), ← List.cons_append,
      ← List.cons_append, ← List.cons_append, List.rdropWhile_concat_neg _ _ _ (by decide)]
  -- and the second time the other drive and slash go
  have hback : '\\' ∉ 'd' :: ':' :: '/' :: (text.toList ++ ['/']) := by
    simp [hforward]
  have hstrip := stripChars_ends (c := 'd') (d := '/') (':' :: '/' :: text.toList) (by decide)
    (by decide)
  simp only [List.cons_append] at hstrip
  have hdot : dropDot (text.toList ++ ['/']) = text.toList ++ ['/'] := by
    unfold dropDot
    split
    · rename_i rest heq
      exact absurd ⟨rest, heq.symm⟩ hdotted
    · rfl
  rw [compared_eq, ← normalizePath_strip]
  unfold normalizePath
  unfold normalizePath at hstripped
  rw [hstripped, normalizeChars_tidy hstrip hback (hbody [] (by decide))]
  change String.ofList (trimSlashes (dropDot (text.toList ++ ['/']))) = text
  rw [hdot, trimSlashes_slash h.named, String.ofList_toList]

end ScopeGate
end ZeroRuntime
