import ZeroRuntime.CompileFix.Model
import ZeroRuntime.Lib.Keyed

/-!
# ZeroRuntime.CompileFix.Unchanged

What the repair changes besides the expressions it completes.

* `Grown`: the new lines are the old ones, but that lines of code may have got an operand.
* `Completable`: the lines that will be completed are such lines, written with one blank before the
  sign and at most one after it.
* `Changed`: how a line that the loop leaves comes from the one it was given.
-/

namespace ZeroRuntime
namespace CompileFix

open Lib Text PathText

variable {w : WordClass}

def IsName (w : WordClass) (cs : List Char) : Prop := cs ≠ [] ∧ ∀ c ∈ cs, w.word c = true

/-- Blanks and a name or a number. -/
def Operand (w : WordClass) (cs : List Char) : Prop :=
  ∃ blanks name, cs = blanks ++ name ∧ (∀ c ∈ blanks, isSpace c = true) ∧ IsName w name

/-- The second lines are the first ones, but that lines of code `return <name> +` may have got an
operand. -/
def Grown (w : WordClass) : Lex → List (List Char) → List (List Char) → Prop
  | _, [], [] => True
  | s, l :: ls, n :: ns =>
    (n = l ∨ s = .code ∧ (∃ m, matchReturn w l = some m) ∧
      ∃ operand, Operand w operand ∧ n = l ++ operand) ∧ Grown w (s.line l) ls ns
  | _, _, _ => False

/-- Only the text between the parts of such a line can be lost. -/
def ReturnLine.Plain (m : ReturnLine) : Prop := m.gap = [' '] ∧ (m.rest = [] ∨ m.rest = [' '])

instance (m : ReturnLine) : Decidable m.Plain := inferInstanceAs (Decidable (_ ∧ _))

def Completable (w : WordClass) : Lex → List (List Char) → Prop
  | _, [] => True
  | s, l :: ls =>
    (∀ m ∈ matchReturn w l, s = .code ∧ m.Plain) ∧ Completable w (s.line l) ls

def OnlyNewlines (cs : List Char) : Prop := ∀ c ∈ cs, isLineBreak c = true → c = '\n'

instance (cs : List Char) : Decidable (OnlyNewlines cs) := List.decidableBAll _ cs

/-! ## Lines that are completed -/

theorem word_of_isName {cs : List Char} (h : ∀ c ∈ cs, w.word c = true) :
    ∀ c ∈ cs, isSpace c = false := by
  intro c hc
  by_contra hspace
  rw [Bool.not_eq_false] at hspace
  have hword := w.space c hspace
  rw [h c hc] at hword
  cases hword

theorem isSpace_of_isLineBreak {c : Char} (h : isLineBreak c = true) : isSpace c = true := by
  unfold isLineBreak at h
  unfold isSpace
  simp only [Bool.or_eq_true, Bool.and_eq_true, decide_eq_true_eq, beq_iff_eq] at h ⊢
  omega

theorem matchKeyword_eq_some {kw line lead rest : List Char}
    (h : matchKeyword kw line = some (lead, rest)) :
    line = lead ++ rest ∧ isPrefix kw (line.dropWhile isSpace) = true := by
  unfold matchKeyword at h
  simp only [Option.ite_none_right_eq_some, Bool.and_eq_true, Option.some.injEq,
    Prod.mk.injEq] at h
  obtain ⟨⟨hpre, -⟩, rfl, rfl⟩ := h
  obtain ⟨tail, htail⟩ := isPrefix_iff.mp hpre
  refine ⟨?_, hpre⟩
  conv_lhs => rw [← List.takeWhile_append_dropWhile (p := isSpace) (l := line), ← htail]
  rw [← htail, List.drop_left, List.append_assoc, List.append_assoc,
    List.takeWhile_append_dropWhile]

theorem matchName_eq_some {cs name rest : List Char} (h : matchName w cs = some (name, rest)) :
    cs = name ++ rest ∧ IsName w name := by
  cases cs with
  | nil => cases h
  | cons c cs =>
    simp only [matchName, Option.ite_none_right_eq_some, Option.some.injEq, Prod.mk.injEq] at h
    obtain ⟨hstart, rfl, rfl⟩ := h
    refine ⟨by rw [List.cons_append, List.takeWhile_append_dropWhile],
      List.cons_ne_nil _ _, fun d hd => ?_⟩
    rcases List.mem_cons.mp hd with rfl | hd
    · exact w.start _ hstart
    · exact List.mem_takeWhile_imp hd

structure ReturnLine.Of (w : WordClass) (m : ReturnLine) (line : List Char) : Prop where
  text : line = m.lead ++ (m.name ++ (m.gap ++ '+' :: m.rest))
  name : IsName w m.name
  gap : ∀ c ∈ m.gap, isSpace c = true
  rest : ∀ c ∈ m.rest, isSpace c = true

variable {line : List Char} {m : ReturnLine}

theorem of_matchReturn (h : matchReturn w line = some m) : m.Of w line := by
  unfold matchReturn at h
  simp only [Option.bind_eq_bind, Option.bind_eq_some_iff, Prod.exists] at h
  obtain ⟨lead, rest, hkeyword, name, rest', hname, h⟩ := h
  split at h
  · rename_i tail htail
    rw [Option.ite_none_right_eq_some, Option.some.injEq] at h
    obtain ⟨hall, rfl⟩ := h
    obtain ⟨rfl, hisName⟩ := matchName_eq_some hname
    refine ⟨?_, hisName, fun c hc => List.mem_takeWhile_imp hc, List.all_eq_true.mp hall⟩
    rw [(matchKeyword_eq_some hkeyword).1, ← htail, List.takeWhile_append_dropWhile]
  · cases h

theorem matchDef_eq_none (h : matchReturn w line = some m) : matchDef w line = none := by
  rw [Option.eq_none_iff_forall_ne_some]
  intro raw hdef
  unfold matchReturn at h
  unfold matchDef at hdef
  simp only [Option.bind_eq_bind, Option.bind_eq_some_iff, Prod.exists] at h hdef
  obtain ⟨_, _, hreturn, -⟩ := h
  obtain ⟨_, _, hdef, -⟩ := hdef
  obtain ⟨t, ht⟩ := isPrefix_iff.mp (matchKeyword_eq_some hreturn).2
  obtain ⟨t', ht'⟩ := isPrefix_iff.mp (matchKeyword_eq_some hdef).2
  have hhead := congrArg List.head? (ht.trans ht'.symm)
  cases hhead

/-- Such a line ends with a blank or with `+`. -/
theorem ReturnLine.Of.last (h : m.Of w line) : ∃ body c, line = body ++ [c] ∧ w.word c = false := by
  rw [h.text]
  rcases List.eq_nil_or_concat' m.rest with hnil | ⟨blanks, blank, hblanks⟩
  · refine ⟨m.lead ++ (m.name ++ m.gap), '+', ?_, w.plus⟩
    simp only [hnil, List.append_assoc]
  · refine ⟨m.lead ++ (m.name ++ (m.gap ++ '+' :: blanks)), blank, ?_, w.space _ (h.rest _ ?_)⟩
    · simp only [hblanks, List.append_assoc, List.cons_append]
    · rw [hblanks]
      exact List.mem_append_right _ List.mem_cons_self

theorem matchReturn_fixed {operand : List Char} (h : IsName w operand) :
    matchReturn w (m.fixed operand) = none := by
  rw [Option.eq_none_iff_forall_ne_some]
  intro m' hm
  obtain ⟨init, last, rfl⟩ := (List.eq_nil_or_concat' operand).resolve_left h.1
  obtain ⟨body, c, hc, hword⟩ := (of_matchReturn hm).last
  have hfixed : m.fixed (init ++ [last]) =
      (m.lead ++ (m.name ++ (" + ".toList ++ init))) ++ [last] := by
    simp only [ReturnLine.fixed, List.append_assoc]
  rw [hfixed, List.append_singleton_inj] at hc
  rw [← hc.2, h.2 last (List.mem_append_right _ List.mem_cons_self)] at hword
  cases hword

/-- What is put between the name and the operand is there already, and nothing else. -/
theorem ReturnLine.Of.plain_iff {operand : List Char} (h : m.Of w line) (hname : IsName w operand) :
    (∃ added, Operand w added ∧ m.fixed operand = line ++ added) ↔ m.Plain := by
  have hnoBlank := word_of_isName hname.2
  have hcut : ∀ added, m.fixed operand = line ++ added ↔
      ' ' :: '+' :: ' ' :: operand = m.gap ++ '+' :: (m.rest ++ added) := by
    intro added
    have hsum : line ++ added = m.lead ++ (m.name ++ (m.gap ++ '+' :: (m.rest ++ added))) := by
      conv_lhs => rw [h.text]
      simp only [List.append_assoc, List.cons_append]
    rw [hsum, ReturnLine.fixed, List.append_cancel_left_eq, List.append_cancel_left_eq]
    rfl
  constructor
  · rintro ⟨added, -, hadded⟩
    rw [hcut] at hadded
    have hgap : m.gap = [' '] := by
      cases hg : m.gap with
      | nil =>
        rw [hg] at hadded
        cases hadded
      | cons g gs =>
        rw [hg, List.cons_append, List.cons.injEq] at hadded
        cases gs with
        | nil => rw [← hadded.1]
        | cons g' gs =>
          rw [List.cons_append, List.cons.injEq] at hadded
          have hspace := h.gap g' (by rw [hg]; simp)
          rw [← hadded.2.1] at hspace
          cases hspace
    refine ⟨hgap, ?_⟩
    rw [hgap] at hadded
    injection hadded with _ hadded
    injection hadded with _ hadded
    cases hr : m.rest with
    | nil => exact .inl rfl
    | cons r rs =>
      rw [hr, List.cons_append, List.cons.injEq] at hadded
      cases rs with
      | nil => exact .inr (by rw [← hadded.1])
      | cons r' rs =>
        have hspace := h.rest r' (by rw [hr]; simp)
        rw [hnoBlank r' (by rw [hadded.2]; exact List.mem_cons_self)] at hspace
        cases hspace
  · rintro ⟨hgap, hrest | hrest⟩
    · refine ⟨' ' :: operand, ⟨[' '], operand, rfl, fun c hc => ?_, hname⟩, (hcut _).mpr ?_⟩
      · rw [List.mem_singleton.mp hc]
        rfl
      · rw [hgap, hrest]
        rfl
    · refine ⟨operand, ⟨[], operand, rfl, fun c hc => absurd hc List.not_mem_nil, hname⟩,
        (hcut _).mpr ?_⟩
      rw [hgap, hrest]
      rfl

/-! ## The loop -/

theorem isName_of_parseArg {item name : List Char} (h : parseArg w item = some name) :
    IsName w name := by
  unfold parseArg at h
  dsimp only at h
  split at h
  · rename_i hmatch
    obtain ⟨heq, hname⟩ := matchName_eq_some hmatch
    rw [List.append_nil] at heq
    rw [Option.some.injEq] at h
    rwa [← h, heq]
  · cases h

theorem isName_of_mem_parseArgs {raw name : List Char} (h : name ∈ parseArgs w raw) :
    IsName w name :=
  let ⟨_, _, hitem⟩ := List.mem_filterMap.mp h
  isName_of_parseArg hitem

theorem isName_replacementName {args : List (List Char)} (left : List Char)
    (h : ∀ name ∈ args, IsName w name) : IsName w (replacementName args left) := by
  unfold replacementName
  split
  · rename_i hfind
    exact h _ (List.mem_of_find?_eq_some hfind)
  · exact h _ (List.mem_cons_of_mem _ List.mem_cons_self)
  · refine ⟨List.cons_ne_nil _ _, fun c hc => ?_⟩
    rw [List.mem_singleton.mp hc]
    exact w.zero

def Changed (w : WordClass) (l n : List Char) : Prop :=
  matchReturn w l = none ∧ n = l ∨
    ∃ m, matchReturn w l = some m ∧ ∃ operand, IsName w operand ∧ n = m.fixed operand

theorem changed_fixLines {args : List (List Char)} (lines : List (List Char))
    (h : ∀ name ∈ args, IsName w name) :
    List.Forall₂ (Changed w) lines (fixLines w args lines).1 := by
  induction lines generalizing args with
  | nil => exact .nil
  | cons line lines ih =>
    unfold fixLines
    split
    · rename_i raw hdef
      refine .cons (.inl ⟨?_, rfl⟩) (ih fun _ => isName_of_mem_parseArgs)
      rw [Option.eq_none_iff_forall_ne_some]
      intro m hm
      rw [matchDef_eq_none hm] at hdef
      cases hdef
    · cases hm : matchReturn w line with
      | none => exact .cons (.inl ⟨hm, rfl⟩) (ih h)
      | some m => exact .cons (.inr ⟨m, hm, _, isName_replacementName _ h, rfl⟩) (ih h)

theorem fixLines_unchanged {args lines : List (List Char)}
    (h : ∀ l ∈ lines, matchReturn w l = none) : (fixLines w args lines).2 = false := by
  induction lines generalizing args with
  | nil => rfl
  | cons line lines ih =>
    rw [List.forall_mem_cons] at h
    unfold fixLines
    split
    · exact ih h.2
    · rw [h.1]
      exact ih h.2

theorem Changed.matchReturn_eq_none {l n : List Char} (h : Changed w l n) :
    matchReturn w n = none := by
  rcases h with ⟨hnone, rfl⟩ | ⟨m, -, operand, hoperand, rfl⟩
  · exact hnone
  · exact matchReturn_fixed hoperand

theorem Changed.noBreak {l n : List Char} (h : Changed w l n)
    (hl : ∀ c ∈ l, isLineBreak c = false) : ∀ c ∈ n, isLineBreak c = false := by
  rcases h with ⟨-, rfl⟩ | ⟨m, hm, operand, hoperand, rfl⟩
  · exact hl
  · rw [(of_matchReturn hm).text] at hl
    have hsign : ∀ c ∈ [' ', '+', ' '], isLineBreak c = false := by
      simp only [List.forall_mem_cons]
      exact ⟨rfl, rfl, rfl, fun c hc => nomatch hc⟩
    simp only [List.mem_append] at hl
    intro c hc
    simp only [ReturnLine.fixed, List.mem_append] at hc
    rcases hc with hc | hc | hc | hc
    · exact hl c (.inl hc)
    · exact hl c (.inr (.inl hc))
    · exact hsign c hc
    · rw [Bool.eq_false_iff]
      intro hbreak
      have hspace := word_of_isName hoperand.2 c hc
      rw [isSpace_of_isLineBreak hbreak] at hspace
      cases hspace

theorem Changed.grown_iff {l n : List Char} {s : Lex} (h : Changed w l n) :
    (n = l ∨ s = .code ∧ (∃ m, matchReturn w l = some m) ∧
      ∃ operand, Operand w operand ∧ n = l ++ operand) ↔
    ∀ m ∈ matchReturn w l, s = .code ∧ m.Plain := by
  have hnone := h.matchReturn_eq_none
  rcases h with ⟨hl, rfl⟩ | ⟨m, hm, operand, hoperand, rfl⟩
  · rw [hl]
    exact iff_of_true (.inl rfl) fun m hm => nomatch hm
  · have hne : m.fixed operand ≠ l := by
      intro heq
      rw [heq, hm] at hnone
      cases hnone
    have hplain := (of_matchReturn hm).plain_iff hoperand
    rw [or_iff_right hne, hplain, hm]
    constructor
    · rintro ⟨hs, -, hplain⟩ m' hm'
      cases hm'
      exact ⟨hs, hplain⟩
    · intro hall
      exact ⟨(hall m rfl).1, ⟨m, rfl⟩, (hall m rfl).2⟩

theorem grown_iff {ls ns : List (List Char)} (h : List.Forall₂ (Changed w) ls ns) (s : Lex) :
    Grown w s ls ns ↔ Completable w s ls := by
  induction h generalizing s with
  | nil => exact Iff.rfl
  | cons hhead _ ih => exact and_congr hhead.grown_iff (ih _)

/-! ## Cutting the text -/

variable {cs : List Char} {ls : List (List Char)}

theorem splitLines_ne_nil (hne : cs ≠ []) : splitLines cs ≠ [] := by
  cases cs with
  | nil => exact absurd rfl hne
  | cons c cs =>
    unfold splitLines
    split
    · cases ‹_›
    · exact List.cons_ne_nil _ _
    · split
      · exact List.cons_ne_nil _ _
      · split <;> exact List.cons_ne_nil _ _

/-- A final `\n` ends the last line and begins no other one. -/
theorem splitChars_eq_splitLines (h : OnlyNewlines cs) (hne : cs ≠ []) :
    splitChars '\n' cs = splitLines cs ++ if cs.getLast? = some '\n' then [[]] else [] := by
  induction cs with
  | nil => exact absurd rfl hne
  | cons c cs ih =>
    have hcr : c ≠ '\r' := by
      rintro rfl
      exact absurd (h _ List.mem_cons_self rfl) (by decide)
    rw [splitChars, splitLines]
    · by_cases hc : c = '\n'
      · rw [if_pos hc, if_pos (by rw [hc]; rfl)]
        cases cs with
        | nil => rw [hc]; rfl
        | cons d ds =>
          rw [ih (fun e he => h e (List.mem_cons_of_mem _ he)) (List.cons_ne_nil _ _),
            List.getLast?_cons_cons, List.cons_append]
      · rw [if_neg hc, if_neg fun hbreak => hc (h c List.mem_cons_self hbreak)]
        cases cs with
        | nil =>
          rw [List.getLast?_singleton, if_neg (by simpa using hc)]
          rfl
        | cons d ds =>
          rw [ih (fun e he => h e (List.mem_cons_of_mem _ he)) (List.cons_ne_nil _ _),
            List.getLast?_cons_cons]
          cases hlines : splitLines (d :: ds) with
          | nil => exact absurd hlines (splitLines_ne_nil (List.cons_ne_nil _ _))
          | cons l ls => rfl
    · exact fun _ hc => absurd hc hcr

theorem noBreak_of_mem_splitLines {l : List Char} (h : l ∈ splitLines cs) :
    ∀ c ∈ l, isLineBreak c = false := by
  induction cs using splitLines.induct generalizing l with
  | case1 => cases h
  | case2 cs ih =>
    rw [splitLines] at h
    rcases List.mem_cons.mp h with rfl | h
    · exact fun c hc => absurd hc List.not_mem_nil
    · exact ih h
  | case3 c cs hcrlf hbreak ih =>
    rw [splitLines.eq_3 _ _ hcrlf, if_pos hbreak] at h
    rcases List.mem_cons.mp h with rfl | h
    · exact fun c hc => absurd hc List.not_mem_nil
    · exact ih h
  | case4 c cs hcrlf hbreak hnil ih =>
    rw [splitLines.eq_3 _ _ hcrlf, if_neg hbreak, hnil, List.mem_singleton] at h
    rw [h]
    intro d hd
    rw [List.mem_singleton.mp hd]
    exact Bool.not_eq_true _ ▸ hbreak
  | case5 c cs hcrlf hbreak line lines hlines ih =>
    rw [splitLines.eq_3 _ _ hcrlf, if_neg hbreak, hlines] at h
    rw [hlines] at ih
    rcases List.mem_cons.mp h with rfl | h
    · intro d hd
      rcases List.mem_cons.mp hd with rfl | hd
      · exact Bool.not_eq_true _ ▸ hbreak
      · exact ih List.mem_cons_self d hd
    · exact ih (List.mem_cons_of_mem _ h)

theorem mem_splitChars_of_mem {sep c : Char} (h : c ∈ cs) (hc : c ≠ sep) :
    ∃ l ∈ splitChars sep cs, c ∈ l := by
  induction cs with
  | nil => cases h
  | cons d cs ih =>
    rw [splitChars]
    split
    · rename_i hd
      rcases List.mem_cons.mp h with rfl | h
      · exact absurd hd hc
      · obtain ⟨l, hl, hcl⟩ := ih h
        exact ⟨l, List.mem_cons_of_mem _ hl, hcl⟩
    · cases hsplit : splitChars sep cs with
      | nil => exact absurd hsplit (splitChars_ne_nil sep cs)
      | cons l ls =>
        rw [hsplit] at ih
        rcases List.mem_cons.mp h with rfl | h
        · exact ⟨_, List.mem_cons_self, List.mem_cons_self⟩
        · obtain ⟨l', hl', hcl⟩ := ih h
          rcases List.mem_cons.mp hl' with rfl | hl'
          · exact ⟨_, List.mem_cons_self, List.mem_cons_of_mem _ hcl⟩
          · exact ⟨l', List.mem_cons_of_mem _ hl', hcl⟩

theorem splitChars_joinLines (hne : ls ≠ []) (h : ∀ l ∈ ls, '\n' ∉ l) (p : Prop) [Decidable p] :
    splitChars '\n' (joinLines ls ++ if p then ['\n'] else []) = ls ++ if p then [[]] else [] := by
  induction ls with
  | nil => exact absurd rfl hne
  | cons l ls ih =>
    rw [List.forall_mem_cons] at h
    cases ls with
    | nil =>
      split
      · rw [splitChars_append, joinLines, splitChars_of_notMem h.1]
        rfl
      · rw [List.append_nil, List.append_nil]
        exact splitChars_of_notMem h.1
    | cons m ls =>
      rw [joinLines, List.append_assoc, List.cons_append, splitChars_append,
        splitChars_of_notMem h.1, ih (List.cons_ne_nil _ _) h.2]
      rfl

theorem mem_joinLines {c : Char} (h : c ∈ joinLines ls) : c = '\n' ∨ ∃ l ∈ ls, c ∈ l := by
  induction ls with
  | nil => cases h
  | cons l ls ih =>
    cases ls with
    | nil => exact .inr ⟨l, List.mem_cons_self, h⟩
    | cons m ls =>
      rcases List.mem_append.mp h with h | h
      · exact .inr ⟨l, List.mem_cons_self, h⟩
      · rcases List.mem_cons.mp h with h | h
        · exact .inl h
        · exact (ih h).imp_right fun ⟨n, hn, hc⟩ => ⟨n, List.mem_cons_of_mem _ hn, hc⟩

/-! ## The text -/

theorem endsWith_iff (source : String) :
    endsWith source "\n" = true ↔ source.toList.getLast? = some '\n' := by
  rw [endsWith, isPrefix_iff, ← List.head?_reverse]
  cases source.toList.reverse with
  | nil => simp
  | cons c cs => simp [eq_comm]

variable {source : String}

theorem synthesize_eq (h : (synthesize w source).1 = true) :
    source.toList ≠ [] ∧ (synthesize w source).2.1.toList =
      joinLines (fixLines w [] (splitLines source.toList)).1 ++
        if source.toList.getLast? = some '\n' then ['\n'] else [] := by
  unfold synthesize at h ⊢
  split at h
  · cases h
  · rename_i hblank
    have hne : source.toList ≠ [] := by
      intro hnil
      rw [strip, hnil] at hblank
      exact hblank rfl
    rw [if_neg hblank]
    dsimp only at h ⊢
    split at h
    · cases h
    · rename_i hlines
      rw [if_neg hlines]
      split at h
      · cases h
      · rename_i hchanged
        rw [if_neg hchanged, String.toList_ofList]
        refine ⟨hne, ?_⟩
        simp only [endsWith_iff]

theorem synthesize_none (h : ∀ l ∈ splitLines source.toList, matchReturn w l = none) :
    (synthesize w source).1 = false := by
  unfold synthesize
  split
  · rfl
  · dsimp only
    split
    · rfl
    · rw [fixLines_unchanged h]
      rfl

theorem Grown.grows {s : Lex} {ns : List (List Char)} (h : Grown w s ls ns) {l : List Char}
    (hl : l ∈ ls) : ∃ n ∈ ns, l <+: n := by
  induction ls generalizing s ns with
  | nil => cases hl
  | cons l' ls ih =>
    cases ns with
    | nil => cases h
    | cons n ns =>
      rcases List.mem_cons.mp hl with rfl | hl
      · refine ⟨n, List.mem_cons_self, ?_⟩
        rcases h.1 with rfl | ⟨-, -, operand, -, rfl⟩
        · exact List.prefix_rfl
        · exact List.prefix_append _ _
      · obtain ⟨n', hn', hpre⟩ := ih h.2 hl
        exact ⟨n', List.mem_cons_of_mem _ hn', hpre⟩

/-- The repair changes nothing else, and leaves nothing to do, if and only if every line break of
the text is a `\n`, and each line that it completes is a line of code with one blank before the `+`
and at most one, a blank, after it. -/
theorem synthesize_unchanged (w : WordClass) (source : String)
    (h : (synthesize w source).1 = true) :
    (Grown w .code (splitChars '\n' source.toList)
        (splitChars '\n' (synthesize w source).2.1.toList) ∧
      (synthesize w (synthesize w source).2.1).1 = false) ↔
    OnlyNewlines source.toList ∧ Completable w .code (splitChars '\n' source.toList) := by
  obtain ⟨hne, htext⟩ := synthesize_eq h
  have hchanged := changed_fixLines (w := w) (splitLines source.toList)
    fun name (hname : name ∈ []) => absurd hname List.not_mem_nil
  generalize (fixLines w [] (splitLines source.toList)).1 = fixed at htext hchanged
  have hnoBreak : ∀ n ∈ fixed, ∀ c ∈ n, isLineBreak c = false := by
    intro n hn
    obtain ⟨l, hl, hln⟩ := forall₂_mem_right hchanged hn
    exact hln.noBreak (noBreak_of_mem_splitLines hl)
  have hfixed : fixed ≠ [] := by
    rintro rfl
    exact splitLines_ne_nil hne (List.forall₂_nil_right_iff.mp hchanged)
  have hsplit := splitChars_joinLines hfixed (fun n hn hc => nomatch hnoBreak n hn _ hc)
    (source.toList.getLast? = some '\n')
  rw [← htext] at hsplit
  have hnewlines : OnlyNewlines (synthesize w source).2.1.toList := by
    rw [htext]
    intro c hc hbreak
    rcases List.mem_append.mp hc with hc | hc
    · refine (mem_joinLines hc).resolve_right fun ⟨n, hn, hcn⟩ => ?_
      rw [hnoBreak n hn c hcn] at hbreak
      cases hbreak
    · split at hc
      · exact List.mem_singleton.mp hc
      · cases hc
  have hsecond : (synthesize w (synthesize w source).2.1).1 = false := by
    refine synthesize_none fun l hl => ?_
    have hnew : (synthesize w source).2.1.toList ≠ [] := by
      intro hnil
      rw [hnil] at hl
      cases hl
    have hmem := List.mem_append_left
      (if (synthesize w source).2.1.toList.getLast? = some '\n' then [[]] else []) hl
    rw [← splitChars_eq_splitLines hnewlines hnew, hsplit] at hmem
    rcases List.mem_append.mp hmem with hmem | hmem
    · obtain ⟨l', -, hl'⟩ := forall₂_mem_right hchanged hmem
      exact hl'.matchReturn_eq_none
    · split at hmem
      · rw [List.mem_singleton.mp hmem]
        rfl
      · cases hmem
  have hiff (honly : OnlyNewlines source.toList) : Grown w .code (splitChars '\n' source.toList)
      (splitChars '\n' (synthesize w source).2.1.toList) ↔
      Completable w .code (splitChars '\n' source.toList) := by
    rw [splitChars_eq_splitLines honly hne, hsplit]
    refine grown_iff (List.rel_append hchanged ?_) _
    split
    · exact .cons (.inl ⟨rfl, rfl⟩) .nil
    · exact .nil
  rw [and_iff_left hsecond]
  constructor
  · intro hgrown
    have honly : OnlyNewlines source.toList := by
      intro c hc hbreak
      by_contra hother
      obtain ⟨l, hl, hcl⟩ := mem_splitChars_of_mem hc hother
      obtain ⟨n, hn, hpre⟩ := hgrown.grows hl
      have hcn := hpre.subset hcl
      rw [hsplit] at hn
      rcases List.mem_append.mp hn with hn | hn
      · rw [hnoBreak n hn c hcn] at hbreak
        cases hbreak
      · split at hn
        · rw [List.mem_singleton.mp hn] at hcn
          cases hcn
        · cases hn
    exact ⟨honly, (hiff honly).mp hgrown⟩
  · rintro ⟨honly, hcompletable⟩
    exact (hiff honly).mpr hcompletable

/-! ## The repair on texts with ASCII words -/

def ascii : WordClass where
  word c := c.isAlphanum || c == '_'
  start c h := by
    unfold nameStart at h
    rw [Char.isAlphanum, Bool.or_right_comm, h]
    rfl
  zero := rfl
  space c h := by
    rw [Bool.eq_false_iff]
    intro hword
    have hrange : (decide (c.val ≥ 65 ∧ c.val ≤ 90) || (c.val ≥ 97 && c.val ≤ 122) ||
        (c.val ≥ 48 && c.val ≤ 57) || c == '_') = true := hword
    simp only [isSpace, Bool.or_eq_true, Bool.and_eq_true, decide_eq_true_eq, beq_iff_eq, ge_iff_le,
      UInt32.le_iff_toNat_le, UInt32.reduceToNat] at h hrange
    change (((65 ≤ c.toNat ∧ c.toNat ≤ 90) ∨ (97 ≤ c.toNat ∧ c.toNat ≤ 122)) ∨
      (48 ≤ c.toNat ∧ c.toNat ≤ 57)) ∨ c = '_' at hrange
    rcases hrange with hletter | rfl
    · omega
    · exact absurd h (by decide)
  plus := rfl
  parenthesis := rfl

theorem synthesize_unchanged_plain :
    Grown ascii .code (splitChars '\n' "def f(a, b):\n    return a +\n".toList)
      (splitChars '\n' (synthesize ascii "def f(a, b):\n    return a +\n").2.1.toList) := by
  have hlines : splitChars '\n' "def f(a, b):\n    return a +\n".toList =
      ["def f(a, b):".toList, "    return a +".toList, []] := by
    decide +kernel
  refine ((synthesize_unchanged ascii _ (by decide +kernel)).mpr ⟨by decide +kernel, ?_⟩).1
  rw [hlines]
  refine ⟨?_, ?_, ?_, trivial⟩
  · exact fun m hm => nomatch hm
  · intro m hm
    cases hm
    decide +kernel
  · exact fun m hm => nomatch hm

/-- A line of a docstring gets an operand. -/
theorem literal_changed :
    ¬∀ w source, (synthesize w source).1 = true →
      Grown w .code (splitChars '\n' source.toList)
          (splitChars '\n' (synthesize w source).2.1.toList) ∧
        (synthesize w (synthesize w source).2.1).1 = false := by
  intro hall
  obtain ⟨hgrown, -⟩ := hall ascii "def f(a, b):\n    \"\"\"\n    return a +\n    \"\"\"\n"
    (by decide +kernel)
  have hlines : splitChars '\n' "def f(a, b):\n    \"\"\"\n    return a +\n    \"\"\"\n".toList =
      ["def f(a, b):".toList, "    \"\"\"".toList, "    return a +".toList, "    \"\"\"".toList,
        []] := by
    decide +kernel
  have hnew : splitChars '\n' (synthesize ascii
        "def f(a, b):\n    \"\"\"\n    return a +\n    \"\"\"\n").2.1.toList =
      ["def f(a, b):".toList, "    \"\"\"".toList, "    return a + b".toList,
        "    \"\"\"".toList, []] := by
    decide +kernel
  rw [hlines, hnew] at hgrown
  rcases hgrown.2.2.1 with hsame | ⟨hcode, -⟩
  · revert hsame
    decide +kernel
  · revert hcode
    decide +kernel

end CompileFix
end ZeroRuntime
