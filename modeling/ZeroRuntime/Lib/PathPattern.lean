import ZeroRuntime.Lib.PathText

/-!
# ZeroRuntime.Lib.PathPattern

Patterns for the places in a directory: one place, what stands directly in one, or everything in it.

* `joinNames`: the text of a place; `segments_joinNames`, `joinNames_segments`: it is read back.
* `Pattern.read`: a text whose last segment is `*` or `**` is a pattern of the last two kinds.
* `Pattern.separates`: a place is told apart from another by the text of some pattern.
* `Named`: a text all of whose segments say something, as that of a place.
-/

namespace ZeroRuntime
namespace Lib
namespace PathText

/-! ## The text of a place -/

def joinChars : List (List Char) → List Char
  | [] => []
  | [cs] => cs
  | cs :: ds :: rest => cs ++ '/' :: joinChars (ds :: rest)

def joinNames (names : List String) : String := String.ofList (joinChars (names.map String.toList))

theorem joinChars_splitChars (cs : List Char) : joinChars (Text.splitChars '/' cs) = cs := by
  induction cs with
  | nil => rfl
  | cons c cs ih =>
    rw [Text.splitChars]
    split
    · rename_i hslash
      cases hsplit : Text.splitChars '/' cs with
      | nil => exact absurd hsplit (splitChars_ne_nil '/' cs)
      | cons w ws =>
        rw [hsplit] at ih
        change [] ++ '/' :: joinChars (w :: ws) = _
        rw [ih, hslash]
        rfl
    · cases hsplit : Text.splitChars '/' cs with
      | nil => exact absurd hsplit (splitChars_ne_nil '/' cs)
      | cons w ws =>
        rw [hsplit] at ih
        rw [← ih]
        cases ws <;> rfl

variable {cs : List Char}

theorem splitChars_of_notMem {sep : Char} (h : sep ∉ cs) : Text.splitChars sep cs = [cs] := by
  have hprepend := @splitChars_prepend sep cs [] [] [] h rfl
  rwa [List.append_nil] at hprepend

theorem splitChars_joinChars {names : List (List Char)} (hne : names ≠ [])
    (h : ∀ cs ∈ names, '/' ∉ cs) : Text.splitChars '/' (joinChars names) = names := by
  induction names with
  | nil => exact absurd rfl hne
  | cons cs names ih =>
    rw [List.forall_mem_cons] at h
    cases names with
    | nil => exact splitChars_of_notMem h.1
    | cons ds names =>
      change Text.splitChars '/' (cs ++ '/' :: joinChars (ds :: names)) = _
      rw [splitChars_append, splitChars_of_notMem h.1, ih (List.cons_ne_nil _ _) h.2]
      rfl

theorem joinNames_segments (s : String) : joinNames (segments s) = s := by
  have hchars : (segments s).map String.toList = Text.splitChars '/' s.toList := by
    unfold segments Text.split
    rw [List.map_map]
    exact (List.map_congr_left fun cs _ => String.toList_ofList).trans (List.map_id _)
  unfold joinNames
  rw [hchars, joinChars_splitChars, String.ofList_toList]

variable {names : List String}

theorem segments_joinNames (hne : names ≠ []) (h : ∀ n ∈ names, '/' ∉ n.toList) :
    segments (joinNames names) = names := by
  unfold segments Text.split joinNames
  rw [String.toList_ofList, splitChars_joinChars]
  · rw [List.map_map]
    exact (List.map_congr_left fun n _ => String.ofList_toList).trans (List.map_id _)
  · exact fun hnil => hne (List.map_eq_nil_iff.mp hnil)
  · intro cs hcs
    obtain ⟨n, hn, rfl⟩ := List.mem_map.mp hcs
    exact h n hn

theorem segments_ne_nil (s : String) : segments s ≠ [] := by
  unfold segments Text.split
  exact fun h => splitChars_ne_nil '/' s.toList (List.map_eq_nil_iff.mp h)

variable {s : String}

theorem segments_injective {t : String} (h : segments s = segments t) : s = t := by
  rw [← joinNames_segments s, h, joinNames_segments]

theorem joinNames_append {more : List String} (hnames : names ≠ []) (hmore : more ≠ []) :
    joinNames (names ++ more) = joinNames names ++ "/" ++ joinNames more := by
  refine String.toList_inj.mp ?_
  have hslash : ("/" : String).toList = ['/'] := rfl
  rw [String.toList_append, String.toList_append, hslash]
  unfold joinNames
  rw [String.toList_ofList, String.toList_ofList, String.toList_ofList, List.map_append]
  induction names with
  | nil => exact absurd rfl hnames
  | cons n names ih =>
    cases names with
    | nil =>
      cases more with
      | nil => exact absurd rfl hmore
      | cons m more =>
        change n.toList ++ '/' :: joinChars ((m :: more).map String.toList) =
          (n.toList ++ ['/']) ++ joinChars ((m :: more).map String.toList)
        rw [List.append_assoc]
        rfl
    | cons n' names =>
      have ih' := ih (List.cons_ne_nil _ _)
      change n.toList ++ '/' :: joinChars (((n' :: names).map String.toList) ++ _) = _
      rw [ih']
      change _ = (n.toList ++ '/' :: joinChars ((n' :: names).map String.toList)) ++ ['/'] ++ _
      simp only [List.append_assoc, List.cons_append]

theorem notMem_of_mem_splitChars {sep : Char} {seg : List Char} (h : seg ∈ Text.splitChars sep cs) :
    sep ∉ seg := by
  induction cs generalizing seg with
  | nil =>
    rw [Text.splitChars, List.mem_singleton] at h
    rw [h]
    exact List.not_mem_nil
  | cons c cs ih =>
    rw [Text.splitChars] at h
    split at h
    · rcases List.mem_cons.mp h with rfl | h
      · exact List.not_mem_nil
      · exact ih h
    · rename_i hsep
      cases hsplit : Text.splitChars sep cs with
      | nil => exact absurd hsplit (splitChars_ne_nil sep cs)
      | cons w ws =>
        rw [hsplit] at h ih
        rcases List.mem_cons.mp h with rfl | h
        · rw [List.mem_cons, not_or]
          exact ⟨Ne.symm hsep, ih List.mem_cons_self⟩
        · exact ih (List.mem_cons_of_mem _ h)

theorem segments_noSlash {n : String} (h : n ∈ segments s) : '/' ∉ n.toList := by
  obtain ⟨cs, hcs, rfl⟩ := List.mem_map.mp h
  rw [String.toList_ofList]
  exact notMem_of_mem_splitChars hcs

theorem mem_of_mem_splitChars {sep c : Char} {seg : List Char} (h : seg ∈ Text.splitChars sep cs)
    (hc : c ∈ seg) : c ∈ cs := by
  induction cs generalizing seg with
  | nil =>
    rw [Text.splitChars, List.mem_singleton] at h
    rwa [h] at hc
  | cons d cs ih =>
    rw [Text.splitChars] at h
    split at h
    · rcases List.mem_cons.mp h with rfl | h
      · cases hc
      · exact List.mem_cons_of_mem _ (ih h hc)
    · cases hsplit : Text.splitChars sep cs with
      | nil => exact absurd hsplit (splitChars_ne_nil sep cs)
      | cons w ws =>
        rw [hsplit] at h ih
        rcases List.mem_cons.mp h with rfl | h
        · rcases List.mem_cons.mp hc with rfl | hc
          · exact List.mem_cons_self
          · exact List.mem_cons_of_mem _ (ih List.mem_cons_self hc)
        · exact List.mem_cons_of_mem _ (ih (List.mem_cons_of_mem _ h) hc)

theorem mem_of_mem_segments {n : String} {c : Char} (h : n ∈ segments s) (hc : c ∈ n.toList) :
    c ∈ s.toList := by
  obtain ⟨cs, hcs, rfl⟩ := List.mem_map.mp h
  rw [String.toList_ofList] at hc
  exact mem_of_mem_splitChars hcs hc

theorem mem_joinChars {c : Char} {names : List (List Char)} (h : c ∈ joinChars names) :
    c = '/' ∨ ∃ cs ∈ names, c ∈ cs := by
  induction names with
  | nil => cases h
  | cons cs names ih =>
    cases names with
    | nil => exact .inr ⟨cs, List.mem_cons_self, h⟩
    | cons ds names =>
      change c ∈ cs ++ '/' :: joinChars (ds :: names) at h
      rcases List.mem_append.mp h with h | h
      · exact .inr ⟨cs, List.mem_cons_self, h⟩
      · rcases List.mem_cons.mp h with rfl | h
        · exact .inl rfl
        · refine (ih h).imp id ?_
          rintro ⟨es, hes, hc⟩
          exact ⟨es, List.mem_cons_of_mem _ hes, hc⟩

theorem joinNames_singleton (n : String) : joinNames [n] = n := String.ofList_toList

theorem segments_name {n : String} (h : '/' ∉ n.toList) : segments n = [n] := by
  rw [← joinNames_singleton n, segments_joinNames (List.cons_ne_nil _ _), joinNames_singleton]
  rw [List.forall_mem_singleton]
  exact h

/-- One text goes on after another and a slash. -/
theorem startsWith_slash_iff {t : String} :
    Text.startsWith s (t ++ "/") = true ↔ ∃ rest, rest ≠ [] ∧ segments s = segments t ++ rest := by
  rw [startsWith_iff]
  constructor
  · rintro ⟨u, rfl⟩
    exact ⟨segments u, segments_ne_nil u, segments_append t u⟩
  · rintro ⟨rest, hne, hsegs⟩
    refine ⟨joinNames rest, ?_⟩
    rw [← joinNames_segments s, hsegs, joinNames_append (segments_ne_nil t) hne, joinNames_segments]

theorem endsWith_iff {suf : String} : Text.endsWith s suf = true ↔ ∃ t, s = t ++ suf := by
  unfold Text.endsWith
  rw [isPrefix_iff, List.reverse_prefix]
  constructor
  · rintro ⟨t, ht⟩
    refine ⟨String.ofList t, String.toList_inj.mp ?_⟩
    rw [String.toList_append, String.toList_ofList, ht]
  · rintro ⟨t, rfl⟩
    exact ⟨t.toList, String.toList_append.symm⟩

theorem endsWith_slash_iff {s last : String} (hlast : '/' ∉ last.toList) :
    Text.endsWith s ("/" ++ last) = true ↔
      ∃ names, names ≠ [] ∧ segments s = names ++ [last] := by
  rw [endsWith_iff]
  constructor
  · rintro ⟨t, rfl⟩
    refine ⟨segments t, segments_ne_nil t, ?_⟩
    rw [← String.append_assoc, segments_append, segments_name hlast]
  · rintro ⟨names, hne, hsegs⟩
    refine ⟨joinNames names, ?_⟩
    rw [← String.append_assoc, ← joinNames_segments s, hsegs,
      joinNames_append hne (List.cons_ne_nil _ _), joinNames_singleton]

/-! ## Texts whose segments all say something -/

def Named (s : String) : Prop := ∀ n ∈ segments s, n ≠ ""

theorem named_joinNames (hne : names ≠ []) (h : ∀ n ∈ names, n ≠ "" ∧ '/' ∉ n.toList) :
    Named (joinNames names) := by
  unfold Named
  rw [segments_joinNames hne fun n hn => (h n hn).2]
  exact fun n hn => (h n hn).1

theorem nil_mem_tail {w : List Char} {ws : List (List Char)}
    (hsplit : Text.splitChars '/' cs = w :: ws) (h : [] ∈ ws) :
    cs.getLast? = some '/' ∨ ['/', '/'] <:+: cs := by
  have hkeep : ∀ {c : Char} {cs : List Char}, cs.getLast? = some '/' ∨ ['/', '/'] <:+: cs →
      (c :: cs).getLast? = some '/' ∨ ['/', '/'] <:+: c :: cs := by
    intro c cs hor
    refine hor.imp (fun hlast => ?_) List.infix_cons
    rw [List.getLast?_cons, hlast]
    rfl
  induction cs generalizing w ws with
  | nil =>
    cases hsplit
    cases h
  | cons c cs ih =>
    rw [Text.splitChars] at hsplit
    cases hrest : Text.splitChars '/' cs with
    | nil => exact absurd hrest (splitChars_ne_nil '/' cs)
    | cons w' ws' =>
      rw [hrest] at hsplit
      by_cases hc : c = '/'
      · rw [if_pos hc] at hsplit
        cases hsplit
        rcases List.mem_cons.mp h with hnil | h
        · -- the next segment is empty: nothing follows, or a slash does
          subst hc
          cases cs with
          | nil => exact .inl rfl
          | cons d ds =>
            right
            rw [Text.splitChars] at hrest
            split at hrest
            · rename_i hd
              rw [hd]
              exact ⟨[], ds, rfl⟩
            · split at hrest <;> (cases hrest; cases hnil)
        · exact hkeep (ih hrest h)
      · rw [if_neg hc] at hsplit
        cases hsplit
        exact hkeep (ih hrest h)

/-- What a text without empty segments looks like. -/
theorem named_iff :
    Named s ↔ s.toList ≠ [] ∧ s.toList.head? ≠ some '/' ∧ s.toList.getLast? ≠ some '/' ∧
      ¬['/', '/'] <:+: s.toList := by
  have hnamed : Named s ↔ [] ∉ Text.splitChars '/' s.toList := by
    unfold Named segments Text.split
    rw [List.forall_mem_map]
    constructor
    · exact fun h hnil => h [] hnil rfl
    · exact fun h cs hcs hempty => h (String.ofList_eq_empty_iff.mp hempty ▸ hcs)
  rw [hnamed]
  generalize s.toList = cs
  constructor
  · intro h
    refine ⟨?_, ?_, ?_, ?_⟩
    · rintro rfl
      exact h List.mem_cons_self
    · intro hhead
      cases cs with
      | nil => cases hhead
      | cons c cs =>
        cases hhead
        refine h ?_
        rw [Text.splitChars, if_pos rfl]
        exact List.mem_cons_self
    · intro hlast
      obtain ⟨ds, rfl⟩ := List.getLast?_eq_some_iff.mp hlast
      refine h ?_
      rw [splitChars_append]
      exact List.mem_append_right _ List.mem_cons_self
    · rintro ⟨before, after, rfl⟩
      refine h ?_
      rw [List.append_assoc]
      change [] ∈ Text.splitChars '/' (before ++ '/' :: ('/' :: after))
      rw [splitChars_append, Text.splitChars, if_pos rfl]
      exact List.mem_append_right _ List.mem_cons_self
  · rintro ⟨hne, hhead, hlast, hdouble⟩ hnil
    cases hsplit : Text.splitChars '/' cs with
    | nil => exact splitChars_ne_nil '/' cs hsplit
    | cons w ws =>
      rw [hsplit] at hnil
      rcases List.mem_cons.mp hnil with rfl | hnil
      · cases cs with
        | nil => exact hne rfl
        | cons c cs =>
          rw [Text.splitChars] at hsplit
          split at hsplit
          · rename_i hc
            exact hhead (congrArg some hc)
          · split at hsplit <;> cases hsplit
      · rcases nil_mem_tail hsplit hnil with h | h
        · exact hlast h
        · exact hdouble h

/-! ## Patterns -/

inductive Pattern where
  | exactly (names : List String)
  | level (names : List String)
  | tree (names : List String)
deriving DecidableEq

namespace Pattern

/-- A place is the one named, stands directly in it, or lies in it. -/
def Matches : Pattern → List String → Prop
  | exactly names, place => place = names
  | level names, place => ∃ name, place = names ++ [name]
  | tree names, place => names <+: place

def read (text : String) : Pattern :=
  let segs := segments text
  if 2 ≤ segs.length ∧ segs.getLast? = some "**" then tree segs.dropLast
  else if 2 ≤ segs.length ∧ segs.getLast? = some "*" then level segs.dropLast
  else exactly segs

theorem read_cases (text : String) :
    (∃ names, names ≠ [] ∧ segments text = names ++ ["**"] ∧ read text = tree names) ∨
    (∃ names, names ≠ [] ∧ segments text = names ++ ["*"] ∧ read text = level names) ∨
    ((∀ names, names ≠ [] → segments text ≠ names ++ ["**"] ∧ segments text ≠ names ++ ["*"]) ∧
      read text = exactly (segments text)) := by
  have hlast : ∀ last, (2 ≤ (segments text).length ∧ (segments text).getLast? = some last) ↔
      ∃ names, names ≠ [] ∧ segments text = names ++ [last] := by
    intro last
    constructor
    · rintro ⟨hlength, hget⟩
      obtain ⟨names, hnames⟩ := List.getLast?_eq_some_iff.mp hget
      refine ⟨names, ?_, hnames⟩
      rintro rfl
      rw [hnames, List.nil_append, List.length_singleton] at hlength
      omega
    · rintro ⟨names, hne, hnames⟩
      have hpos : 0 < names.length := List.length_pos_iff.mpr hne
      rw [hnames, List.length_append, List.length_singleton, List.getLast?_concat]
      exact ⟨by omega, rfl⟩
  unfold read
  dsimp only
  by_cases htree : 2 ≤ (segments text).length ∧ (segments text).getLast? = some "**"
  · obtain ⟨names, hne, hnames⟩ := (hlast "**").mp htree
    refine .inl ⟨names, hne, hnames, ?_⟩
    rw [if_pos htree, hnames, List.dropLast_concat]
  · rw [if_neg htree]
    by_cases hlevel : 2 ≤ (segments text).length ∧ (segments text).getLast? = some "*"
    · obtain ⟨names, hne, hnames⟩ := (hlast "*").mp hlevel
      refine .inr (.inl ⟨names, hne, hnames, ?_⟩)
      rw [if_pos hlevel, hnames, List.dropLast_concat]
    · rw [if_neg hlevel]
      refine .inr (.inr ⟨fun names hne => ⟨fun h => ?_, fun h => ?_⟩, rfl⟩)
      · exact htree ((hlast "**").mpr ⟨names, hne, h⟩)
      · exact hlevel ((hlast "*").mpr ⟨names, hne, h⟩)

/-- A text, read as a pattern, matches itself, read as a place. -/
theorem matches_self (text : String) : (read text).Matches (segments text) := by
  rcases read_cases text with ⟨names, -, hsegs, hread⟩ | ⟨names, -, hsegs, hread⟩ | ⟨-, hread⟩
  · rw [hread, hsegs]
    exact List.prefix_append _ _
  · rw [hread, hsegs]
    exact ⟨"*", rfl⟩
  · rw [hread]
    rfl

theorem ne_nil_of_matches {text : String} {place : List String} (h : (read text).Matches place) :
    place ≠ [] := by
  rintro rfl
  rcases read_cases text with ⟨names, hne, -, hread⟩ | ⟨names, -, -, hread⟩ | ⟨-, hread⟩
  · rw [hread] at h
    exact hne (List.prefix_nil.mp h)
  · rw [hread] at h
    obtain ⟨name, hname⟩ := h
    exact List.append_ne_nil_of_right_ne_nil _ (List.cons_ne_nil _ _) hname.symm
  · rw [hread] at h
    exact segments_ne_nil _ h.symm

/-- Whatever is true of the names of a place, of `*` and of `**` is true of those of a pattern that
matches the place and not the other one. -/
theorem separates {P : String → Prop} {place other : List String} (hne : place ≠ [])
    (hdiffers : place ≠ other) (hslash : ∀ n, P n → '/' ∉ n.toList) (hplace : ∀ n ∈ place, P n)
    (hstar : P "*") (hstars : P "**") :
    ∃ names, names ≠ [] ∧ (∀ n ∈ names, P n) ∧ (read (joinNames names)).Matches place ∧
      ¬(read (joinNames names)).Matches other := by
  have hread : ∀ names last, names ≠ [] → (∀ n ∈ names ++ [last], P n) →
      segments (joinNames (names ++ [last])) = names ++ [last] := fun names last _ hall =>
    segments_joinNames (List.append_ne_nil_of_right_ne_nil _ (List.cons_ne_nil _ _))
      fun n hn => hslash n (hall n hn)
  have hwith : ∀ names : List String, (∀ n ∈ names, P n) → ∀ last, P last →
      ∀ n ∈ names ++ [last], P n := by
    intro names hnames last hlast n hn
    rcases List.mem_append.mp hn with hn | hn
    · exact hnames n hn
    · rw [List.mem_singleton.mp hn]
      exact hlast
  by_cases hbelow : place <+: other
  · -- the other place lies below this one
    obtain ⟨rest, rfl⟩ := hbelow
    have hrest : rest ≠ [] := by
      rintro rfl
      exact hdiffers (List.append_nil place).symm
    obtain ⟨front, last, hlast⟩ := (List.eq_nil_or_concat place).resolve_left hne
    rw [List.concat_eq_append] at hlast
    subst hlast
    by_cases hfront : front = []
    · subst hfront
      refine ⟨[last], List.cons_ne_nil _ _, hplace, ?_⟩
      have hsegs : segments (joinNames [last]) = [last] :=
        segments_joinNames (List.cons_ne_nil _ _) fun n hn => hslash n (hplace n hn)
      have hexactly : read (joinNames [last]) = exactly [last] := by
        unfold read
        rw [hsegs]
        rfl
      rw [hexactly]
      refine ⟨rfl, fun h => hrest ?_⟩
      exact List.append_cancel_left (h.trans (List.append_nil [last]).symm)
    · have hall := hwith front (fun n hn => hplace n (List.mem_append_left _ hn)) "*" hstar
      refine ⟨front ++ ["*"], List.append_ne_nil_of_left_ne_nil hfront _, hall, ?_⟩
      have hlevel : read (joinNames (front ++ ["*"])) = level front := by
        have hpos : 0 < front.length := List.length_pos_iff.mpr hfront
        unfold read
        dsimp only
        rw [hread front "*" hfront hall, List.getLast?_concat, List.dropLast_concat,
          List.length_append, List.length_singleton, if_neg (by simp), if_pos ⟨by omega, rfl⟩]
      rw [hlevel]
      refine ⟨⟨last, rfl⟩, ?_⟩
      rintro ⟨name, hname⟩
      have hlength := congrArg List.length hname
      simp only [List.length_append, List.length_singleton] at hlength
      have hpos : 0 < rest.length := List.length_pos_iff.mpr hrest
      omega
  · have hall := hwith place hplace "**" hstars
    refine ⟨place ++ ["**"], List.append_ne_nil_of_left_ne_nil hne _, hall, ?_⟩
    have htree : read (joinNames (place ++ ["**"])) = tree place := by
      have hpos : 0 < place.length := List.length_pos_iff.mpr hne
      unfold read
      dsimp only
      rw [hread place "**" hne hall, List.getLast?_concat, List.dropLast_concat,
        List.length_append, List.length_singleton, if_pos ⟨by omega, rfl⟩]
    rw [htree]
    exact ⟨List.prefix_refl _, hbelow⟩

end Pattern

end PathText
end Lib
end ZeroRuntime
