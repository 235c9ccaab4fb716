import ZeroRuntime.ScopeGate.Patterns

/-!
# ZeroRuntime.ScopeGate.Resolved

Which strings the gate judges by the file they name.

* `locate`: the place a string names, read from the root of the project.
* `ScopeLaw`: the targets that pass match an allowed pattern and no blocked one, and two names of one
  place are judged alike.
* `scopeGate_iff`: so it is for all patterns if and only if what is compared is the text of the
  place, or empty for every name of it.
-/

namespace ZeroRuntime
namespace ScopeGate

open Lib PathText

/-! ## Places -/

def ValidName (n : String) : Prop :=
  n ≠ "" ∧ n ≠ "." ∧ n ≠ ".." ∧ '/' ∉ n.toList ∧ '\\' ∉ n.toList

structure Place where
  drive : Option Char
  names : List String
deriving DecidableEq

/-- The root of the project; drives are lower case. -/
structure Root extends Place where
  valid : ∀ n ∈ names, ValidName n

/-- The drive at the front of a text, and what follows its colon. -/
def driveOf : List Char → Option (Char × List Char)
  | c :: ':' :: '/' :: rest => if c.isAlpha then some (c.toLower, '/' :: rest) else none
  | _ => none

def locate (root : Root) (path : String) : Place :=
  let text := Text.replaceChar '\\' '/' path
  match driveOf text.toList with
  | some (drive, rest) => ⟨some drive, placeFrom [] (String.ofList rest)⟩
  | none => ⟨root.drive, placeFrom root.names text⟩

def within (root : Root) (place : Place) : Option (List String) :=
  if place.drive = root.drive ∧ root.names <+: place.names then
    some (place.names.drop root.names.length)
  else none

theorem valid_walk {segment : String} (hslash : '/' ∉ segment.toList)
    (hback : '\\' ∉ segment.toList) {stack : List String} (h : ∀ n ∈ stack, ValidName n) :
    ∀ n ∈ walk true stack segment, ValidName n := by
  unfold walk
  split
  · exact h
  · rename_i hname
    split
    · cases stack with
      | nil => exact h
      | cons top rest =>
        rw [List.forall_mem_cons] at h
        dsimp only
        rw [if_neg h.1.2.2.1]
        exact h.2
    · rename_i hup
      rw [not_or] at hname
      rw [List.forall_mem_cons]
      exact ⟨⟨hname.1, hname.2, hup, hslash, hback⟩, h⟩

theorem valid_foldl {segs : List String}
    (hsegs : ∀ n ∈ segs, '/' ∉ n.toList ∧ '\\' ∉ n.toList) {stack : List String}
    (h : ∀ n ∈ stack, ValidName n) : ∀ n ∈ segs.foldl (walk true) stack, ValidName n := by
  induction segs generalizing stack with
  | nil => exact h
  | cons seg segs ih =>
    rw [List.forall_mem_cons] at hsegs
    exact ih hsegs.2 (valid_walk hsegs.1.1 hsegs.1.2 h)

theorem valid_placeFrom {dir : List String} (hdir : ∀ n ∈ dir, ValidName n) {text : String}
    (htext : '\\' ∉ text.toList) : ∀ n ∈ placeFrom dir text, ValidName n := by
  have hsegs : ∀ n ∈ segments text, '/' ∉ n.toList ∧ '\\' ∉ n.toList := fun n hn =>
    ⟨segments_noSlash hn, fun hback => htext (mem_of_mem_segments hn hback)⟩
  unfold placeFrom resolve
  split
  · rename_i habsolute
    rw [habsolute]
    intro n hn
    exact valid_foldl hsegs (fun n hn => (by cases hn)) n (List.mem_reverse.mp hn)
  · intro n hn
    refine valid_foldl hsegs ?_ n (List.mem_reverse.mp hn)
    exact fun n hn => hdir n (List.mem_reverse.mp hn)

theorem valid_locate (root : Root) (path : String) :
    ∀ n ∈ (locate root path).names, ValidName n := by
  have hback : '\\' ∉ (Text.replaceChar '\\' '/' path).toList := by
    unfold Text.replaceChar
    rw [String.toList_ofList]
    intro h
    obtain ⟨c, -, hc⟩ := List.mem_map.mp h
    split at hc
    · exact absurd hc (by decide)
    · rename_i hne
      exact hne hc
  unfold locate
  dsimp only
  split
  · rename_i drive rest hdrive
    refine valid_placeFrom (fun n hn => (by cases hn)) ?_
    rw [String.toList_ofList]
    unfold driveOf at hdrive
    split at hdrive
    · rename_i c rest' hchars
      split at hdrive
      · cases hdrive
        rw [hchars] at hback
        exact fun h => hback (List.mem_cons_of_mem _ (List.mem_cons_of_mem _ h))
      · cases hdrive
    · cases hdrive
  · exact valid_placeFrom root.valid hback

variable {path : String} {names : List String}

theorem valid_within {root : Root} (h : within root (locate root path) = some names) :
    ∀ n ∈ names, ValidName n := by
  unfold within at h
  split at h
  · cases h
    exact fun n hn => valid_locate root path n (List.mem_of_mem_drop hn)
  · cases h

/-! ## What is allowed -/

/-- A pattern, as the gate reads it, matches the names of a place. -/
def Covers (pattern : String) (names : List String) : Prop :=
  compared pattern ≠ "" ∧ (Pattern.read (compared pattern)).Matches names

theorem pathMatches_iff {pattern : String} :
    pathMatches (normalizePath path) (Text.strip (normalizePath pattern)) = true ↔
      compared path ≠ "" ∧ Covers pattern (segments (compared path)) := by
  unfold pathMatches Covers
  dsimp only
  rw [normalizePath_strip, ← compared_eq, ← compared_eq]
  split
  · rename_i hempty
    refine ⟨fun h => absurd h Bool.false_ne_true, ?_⟩
    rintro ⟨hpath, ⟨hpattern, -⟩⟩
    rcases hempty with hempty | hempty
    · exact absurd hempty hpath
    · exact absurd hempty hpattern
  · rename_i hne
    obtain ⟨hpath, hpattern⟩ := not_or.mp hne
    rw [matchText_iff (named_compared hpath) (named_compared hpattern), and_iff_right hpath,
      and_iff_right hpattern]

theorem mem_unique {values : List String} {text : String} :
    text ∈ unique values ↔ (∃ value ∈ values, Text.strip value = text) ∧ text ≠ "" := by
  unfold unique
  rw [List.mem_eraseDups, List.mem_filter, List.mem_map, decide_eq_true_iff]

variable {patterns : List String}

theorem exists_normalizePatterns :
    (∃ q ∈ normalizePatterns patterns, pathMatches (normalizePath path) q = true) ↔
      compared path ≠ "" ∧ ∃ q ∈ patterns, Covers q (segments (compared path)) := by
  unfold normalizePatterns
  constructor
  · rintro ⟨q, hq, hmatch⟩
    obtain ⟨⟨value, hvalue, rfl⟩, -⟩ := mem_unique.mp hq
    obtain ⟨p, hp, rfl⟩ := List.mem_map.mp hvalue
    obtain ⟨hne, hcovers⟩ := pathMatches_iff.mp hmatch
    exact ⟨hne, p, hp, hcovers⟩
  · rintro ⟨hne, p, hp, hcovers⟩
    refine ⟨Text.strip (normalizePath p), mem_unique.mpr ⟨⟨_, List.mem_map_of_mem hp, rfl⟩, ?_⟩,
      pathMatches_iff.mpr ⟨hne, hcovers⟩⟩
    intro hempty
    refine hcovers.1 ?_
    rw [compared_eq, ← normalizePath_strip, hempty]
    rfl

theorem firstMatchingPattern_ne :
    firstMatchingPattern path patterns ≠ "" ↔ ∃ q ∈ patterns, pathMatches path q = true := by
  have hempty : ∀ path, pathMatches path "" = false := by
    intro path
    unfold pathMatches
    exact if_pos (.inr rfl)
  unfold firstMatchingPattern
  cases hfind : patterns.find? fun pattern => pathMatches path pattern with
  | none =>
    rw [List.find?_eq_none] at hfind
    exact ⟨fun h => absurd rfl h, fun ⟨q, hq, hmatch⟩ => absurd hmatch (hfind q hq)⟩
  | some q =>
    have hmatch := List.find?_some hfind
    refine ⟨fun _ => ⟨q, List.mem_of_find?_eq_some hfind, hmatch⟩, fun _ hq => ?_⟩
    change q = "" at hq
    rw [hq, hempty] at hmatch
    exact Bool.false_ne_true hmatch

def allows (allowed blocked : List String) (path : String) : Bool :=
  (decidePathScope (normalizePatterns (orDefault allowed defaultAllowedPaths))
    (normalizePatterns (orDefault blocked defaultBlockedPaths)) path).allowed

variable {allowed blocked : List String}

theorem allows_iff :
    allows allowed blocked path = true ↔ compared path ≠ "" ∧
      (∀ b ∈ orDefault blocked defaultBlockedPaths, ¬Covers b (segments (compared path))) ∧
      ∃ a ∈ orDefault allowed defaultAllowedPaths, Covers a (segments (compared path)) := by
  unfold allows decidePathScope
  dsimp only
  split
  · rename_i hempty
    exact ⟨fun h => absurd h Bool.false_ne_true, fun h => absurd (compared_of_empty hempty) h.1⟩
  · split
    · rename_i hblocked
      obtain ⟨-, q, hq, hcovers⟩ := exists_normalizePatterns.mp (firstMatchingPattern_ne.mp hblocked)
      exact ⟨fun h => absurd h Bool.false_ne_true, fun h => absurd hcovers (h.2.1 q hq)⟩
    · rename_i hblocked
      rw [firstMatchingPattern_ne, exists_normalizePatterns] at hblocked
      split
      · rename_i hallowed
        obtain ⟨hne, hcovers⟩ := exists_normalizePatterns.mp (firstMatchingPattern_ne.mp hallowed)
        refine ⟨fun _ => ⟨hne, fun b hb hcover => hblocked ⟨hne, b, hb, hcover⟩, hcovers⟩, fun _ => rfl⟩
      · rename_i hallowed
        rw [firstMatchingPattern_ne, exists_normalizePatterns] at hallowed
        exact ⟨fun h => absurd h Bool.false_ne_true, fun h => absurd ⟨h.1, h.2.2⟩ hallowed⟩

theorem allows_strip : allows allowed blocked (Text.strip path) = allows allowed blocked path := by
  rw [Bool.eq_iff_iff, allows_iff, allows_iff, compared_eq, normalizePath_strip, ← compared_eq]

/-! ## The law -/

/-- The targets that pass match an allowed pattern and no blocked one by the place they name, and the
names of one place are judged alike. -/
structure ScopeLaw (root : Root) (authorization actions : Val) (targets allowed blocked : List String) :
    Prop where
  covered : (scopeGate authorization (.list (targets.map .str)) actions allowed blocked).scopeAllowed =
      true → ∀ t ∈ targets, ∃ names, within root (locate root t) = some names ∧
        (∃ a ∈ orDefault allowed defaultAllowedPaths, Covers a names) ∧
        ∀ b ∈ orDefault blocked defaultBlockedPaths, ¬Covers b names
  same : ∀ s ∈ targets, ∀ t ∈ targets, locate root s = locate root t →
    allows allowed blocked s = allows allowed blocked t

/-- What is compared is the text of the place that the string names, or is empty. -/
def Resolved (root : Root) (path : String) : Prop :=
  Text.strip path ≠ "" ∧ (compared path = "" ∨
    ∃ names, within root (locate root path) = some names ∧ joinNames names = compared path)

/-! ## The gate -/

theorem filterMap_reason_nil {decisions : List PathDecision} :
    decisions.filterMap pathReason = [] ↔ ∀ d ∈ decisions, d.allowed = true := by
  rw [List.filterMap_eq_nil_iff]
  refine forall₂_congr fun d _ => ?_
  unfold pathReason
  cases d.allowed <;> simp

/-- A path that is asked for is decided on, unless it is blank. -/
theorem allowed_of_scopeAllowed {authorization actions : Val} {targets : List String}
    (h : (scopeGate authorization (.list (targets.map .str)) actions allowed blocked).scopeAllowed =
      true) : ∀ t ∈ targets, Text.strip t ≠ "" → allows allowed blocked t = true := by
  unfold scopeGate at h
  dsimp only at h
  rw [Bool.and_eq_true, List.isEmpty_iff, List.append_eq_nil_iff, List.append_eq_nil_iff] at h
  obtain ⟨-, ⟨-, hpaths⟩, -⟩ := h
  intro t ht hne
  rw [← allows_strip]
  refine filterMap_reason_nil.mp hpaths _ (List.mem_map_of_mem ?_)
  unfold stringList
  dsimp only
  refine mem_unique.mpr ⟨⟨t, ?_, rfl⟩, hne⟩
  refine List.mem_map.mpr ⟨.str t, List.mem_filter.mpr ⟨List.mem_map_of_mem ht, ?_⟩, rfl⟩
  rw [decide_eq_true_iff, Val.text_str]
  exact hne

/-- An authorization without more. -/
def granted : Val := .dict [("authorized", .bool true)]

/-- Where nothing else stands against it, the gate passes what is allowed. -/
theorem scopeAllowed_of_allowed {targets : List String}
    (h : ∀ t ∈ targets, Text.strip t ≠ "" → allows allowed blocked t = true) :
    (scopeGate granted (.list (targets.map .str)) .none allowed blocked).scopeAllowed = true := by
  have hactions : ((stringList .none (extractRequestedActions granted.entries)).map
      decideActionScope).filterMap actionReason = [] := by
    decide +kernel
  unfold scopeGate
  dsimp only
  rw [Bool.and_eq_true, List.isEmpty_iff, List.append_eq_nil_iff, List.append_eq_nil_iff]
  refine ⟨rfl, ⟨rfl, filterMap_reason_nil.mpr ?_⟩, hactions⟩
  intro d hd
  obtain ⟨path, hpath, rfl⟩ := List.mem_map.mp hd
  unfold stringList at hpath
  dsimp only at hpath
  obtain ⟨⟨value, hvalue, rfl⟩, hne⟩ := mem_unique.mp hpath
  obtain ⟨item, hitem, rfl⟩ := List.mem_map.mp hvalue
  obtain ⟨t, ht, rfl⟩ := List.mem_map.mp (List.mem_filter.mp hitem).1
  change allows allowed blocked (Text.strip t) = true
  rw [allows_strip]
  exact h t ht hne

/-! ## Texts that tell places apart -/

theorem covers_self (h : compared path ≠ "") :
    Covers path (segments (compared path)) := ⟨h, Pattern.matches_self _⟩

theorem ne_nil_of_covers {pattern : String} (h : Covers pattern names) :
    names ≠ [] := Pattern.ne_nil_of_matches h.2

theorem plain_joinNames (hne : names ≠ []) (h : ∀ n ∈ names, ValidName n) :
    Plain (joinNames names) := by
  have hslash : ∀ n ∈ names, '/' ∉ n.toList := fun n hn => (h n hn).2.2.2.1
  refine ⟨named_joinNames hne fun n hn => ⟨(h n hn).1, hslash n hn⟩, fun hback => ?_, fun hdot => ?_⟩
  · unfold joinNames at hback
    rw [String.toList_ofList] at hback
    rcases mem_joinChars hback with heq | ⟨cs, hcs, hc⟩
    · exact absurd heq (by decide)
    · obtain ⟨n, hn, rfl⟩ := List.mem_map.mp hcs
      exact (h n hn).2.2.2.2 hc
  · -- the first segment would be a dot
    obtain ⟨rest, hrest⟩ := hdot
    have htext : "." ++ "/" ++ String.ofList rest = joinNames names ++ "/" := by
      refine String.toList_inj.mp ?_
      have hslash : ("/" : String).toList = ['/'] := rfl
      have hofList : (String.ofList rest).toList = rest := String.toList_ofList
      rw [String.toList_append, String.toList_append, String.toList_append, hofList, hslash, ← hrest]
      rfl
    have hsegs := congrArg segments htext
    rw [segments_append, segments_slash, segments_joinNames hne hslash] at hsegs
    cases names with
    | nil => exact hne rfl
    | cons n names =>
      have hhead := congrArg List.head? hsegs
      have hdot : some "." = some n := hhead
      exact (h n List.mem_cons_self).2.1 (Option.some.inj hdot).symm

/-- Some pattern covers a place and not what is compared, where the two differ. -/
theorem separates {other : List String} (hne : names ≠ []) (hdiffers : names ≠ other)
    (h : ∀ n ∈ names, ValidName n) : ∃ pattern, Covers pattern names ∧ ¬Covers pattern other := by
  have hstar : ValidName "*" := by
    unfold ValidName
    decide
  have hstars : ValidName "**" := by
    unfold ValidName
    decide
  obtain ⟨parts, hparts, hvalid, hmatches, hnot⟩ :=
    Pattern.separates hne hdiffers (fun n hn => hn.2.2.2.1) h hstar hstars
  have hplain := plain_joinNames hparts hvalid
  refine ⟨wrap (joinNames parts), ?_, ?_⟩
  · refine ⟨?_, ?_⟩
    · rw [compared_wrap hplain]
      intro hempty
      have hnamed := hplain.named
      rw [hempty] at hnamed
      exact (named_iff.mp hnamed).1 rfl
    · rw [compared_wrap hplain]
      exact hmatches
  · rintro ⟨-, hcovers⟩
    rw [compared_wrap hplain] at hcovers
    exact hnot hcovers

theorem not_covers_empty (names : List String) : ¬Covers "" names := fun h => h.1 compared_empty

/-- Only the path itself is allowed, and nothing is blocked. -/
theorem allows_self (h : compared path ≠ "") : allows [path] [""] path = true := by
  refine allows_iff.mpr ⟨h, fun b hb => ?_, path, List.mem_cons_self, covers_self h⟩
  rw [List.mem_singleton.mp hb]
  exact not_covers_empty _

/-! ## When the law holds -/

section Law

variable {root : Root} {paths : List String}

theorem resolved_of_law (hlaw : ∀ targets, targets ⊆ paths → ∀ authorization actions allowed blocked,
    ScopeLaw root authorization actions targets allowed blocked) {p : String} (hp : p ∈ paths) :
    Resolved root p := by
  have hsub : [p] ⊆ paths := List.cons_subset.mpr ⟨hp, List.nil_subset _⟩
  refine ⟨fun hblank => ?_, ?_⟩
  · -- a blank target is left out, so the gate passes without any pattern
    have hpass : (scopeGate granted (.list ([p].map .str)) .none [""] [""]).scopeAllowed = true :=
      scopeAllowed_of_allowed fun t ht hne => absurd (List.mem_singleton.mp ht ▸ hblank) hne
    obtain ⟨names, -, ⟨a, ha, hcovers⟩, -⟩ :=
      (hlaw [p] hsub granted .none [""] [""]).covered hpass p List.mem_cons_self
    rw [List.mem_singleton.mp ha] at hcovers
    exact not_covers_empty _ hcovers
  · by_cases hempty : compared p = ""
    · exact .inl hempty
    · have hpass : ∀ blocked, allows [p] blocked p = true →
          (scopeGate granted (.list ([p].map .str)) .none [p] blocked).scopeAllowed = true :=
        fun blocked hallows => scopeAllowed_of_allowed fun t ht _ => by
          rw [List.mem_singleton.mp ht]
          exact hallows
      obtain ⟨names, hnames, ⟨a, ha, hcovers⟩, -⟩ :=
        (hlaw [p] hsub granted .none [p] [""]).covered (hpass [""] (allows_self hempty)) p
          List.mem_cons_self
      refine .inr ⟨names, hnames, ?_⟩
      by_contra hdiffers
      -- a pattern that blocks the place lets the text pass
      have hne : names ≠ segments (compared p) := by
        intro heq
        rw [heq, joinNames_segments] at hdiffers
        exact hdiffers rfl
      obtain ⟨pattern, hplace, htext⟩ :=
        separates (ne_nil_of_covers hcovers) hne (valid_within hnames)
      have hallows : allows [p] [pattern] p = true := by
        refine allows_iff.mpr ⟨hempty, fun b hb => ?_, p, List.mem_cons_self, covers_self hempty⟩
        rw [List.mem_singleton.mp hb]
        exact htext
      obtain ⟨names', hnames', -, hblocked⟩ :=
        (hlaw [p] hsub granted .none [p] [pattern]).covered (hpass [pattern] hallows) p
          List.mem_cons_self
      cases Option.some.inj (hnames.symm.trans hnames')
      exact hblocked pattern List.mem_cons_self hplace

theorem compared_of_law (hlaw : ∀ targets, targets ⊆ paths →
    ∀ authorization actions allowed blocked,
      ScopeLaw root authorization actions targets allowed blocked) {s t : String} (hs : s ∈ paths)
    (ht : t ∈ paths) (hplace : locate root s = locate root t) (h : compared s ≠ "") :
    compared t ≠ "" := by
  have hsub : [s, t] ⊆ paths :=
    List.cons_subset.mpr ⟨hs, List.cons_subset.mpr ⟨ht, List.nil_subset _⟩⟩
  have hsame := (hlaw [s, t] hsub granted .none [s] [""]).same s List.mem_cons_self t
    (List.mem_cons_of_mem _ List.mem_cons_self) hplace
  rw [allows_self h] at hsame
  exact (allows_iff.mp hsame.symm).1

/-- The names of the place are the segments of what is compared. -/
theorem Resolved.segments {p : String} (h : Resolved root p) (hne : compared p ≠ "") :
    within root (locate root p) = some (PathText.segments (compared p)) := by
  obtain ⟨-, hempty | ⟨names, hnames, hjoin⟩⟩ := h
  · exact absurd hempty hne
  · have hnil : names ≠ [] := by
      rintro rfl
      exact hne hjoin.symm
    rw [← hjoin, segments_joinNames hnil fun n hn => (valid_within hnames n hn).2.2.2.1]
    exact hnames

/-- The gate judges every list of targets by the places they name, for all patterns, if and only if
it compares the text of the place, or nothing for every name of it. -/
theorem scopeGate_iff (root : Root) (paths : List String) :
    (∀ targets, targets ⊆ paths → ∀ authorization actions allowed blocked,
        ScopeLaw root authorization actions targets allowed blocked) ↔
      (∀ p ∈ paths, Resolved root p) ∧ ∀ s ∈ paths, ∀ t ∈ paths,
        locate root s = locate root t → (compared s = "" ↔ compared t = "") := by
  constructor
  · intro hlaw
    refine ⟨fun p hp => resolved_of_law hlaw hp, fun s hs t ht hplace => ?_⟩
    rw [← not_iff_not]
    exact ⟨compared_of_law hlaw hs ht hplace, compared_of_law hlaw ht hs hplace.symm⟩
  · rintro ⟨hresolved, hempty⟩ targets hsub authorization actions allowed blocked
    refine ⟨fun hpass t ht => ?_, fun s hs t ht hplace => ?_⟩
    · have hr := hresolved t (hsub ht)
      obtain ⟨hne, hblocked, hallowed⟩ :=
        allows_iff.mp (allowed_of_scopeAllowed hpass t ht hr.1)
      exact ⟨segments (compared t), hr.segments hne, hallowed, hblocked⟩
    · rw [Bool.eq_iff_iff, allows_iff, allows_iff]
      by_cases hs' : compared s = ""
      · have ht' := (hempty s (hsub hs) t (hsub ht) hplace).mp hs'
        exact ⟨fun h => absurd hs' h.1, fun h => absurd ht' h.1⟩
      · have ht' := (not_iff_not.mpr (hempty s (hsub hs) t (hsub ht) hplace)).mp hs'
        have hsegs := (hresolved s (hsub hs)).segments hs'
        rw [hplace, (hresolved t (hsub ht)).segments ht'] at hsegs
        rw [segments_injective (Option.some.inj hsegs)]

end Law

/-- The project in a directory of its own. -/
def projectRoot : Root where
  drive := none
  names := ["project"]
  valid := by
    unfold ValidName
    decide

/-- A target that goes up out of an allowed directory names a blocked file, and passes. -/
theorem traversal_passes :
    ¬ScopeLaw projectRoot granted .none ["workspace/shared/../../core/tasks/scheduler.py"] [] [] := by
  intro h
  obtain ⟨names, hnames, -, hblocked⟩ := h.covered (by decide +kernel) _ List.mem_cons_self
  have hplace : within projectRoot
      (locate projectRoot "workspace/shared/../../core/tasks/scheduler.py") =
        some ["core", "tasks", "scheduler.py"] := by
    decide +kernel
  cases Option.some.inj (hplace.symm.trans hnames)
  have hcompared : compared "core/tasks/scheduler.py" = "core/tasks/scheduler.py" := by
    rw [compared_eq]
    decide +kernel
  have hread : Pattern.read "core/tasks/scheduler.py" =
      .exactly ["core", "tasks", "scheduler.py"] := by
    decide +kernel
  refine hblocked "core/tasks/scheduler.py" (by decide) ⟨?_, ?_⟩
  · rw [hcompared]
    decide
  · rw [hcompared, hread]
    rfl

end ScopeGate
end ZeroRuntime
