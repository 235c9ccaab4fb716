import Mathlib.Data.List.Basic
import Mathlib.Data.List.DropRight

/-!
# ZeroRuntime.Lib.Text

Text helpers of a scripting language: `strip`, digits, and the quoted form `str` shows a string in
when it occurs inside a list or a mapping. All of them go through the list of characters, so that
closed terms evaluate.
-/

namespace ZeroRuntime
namespace Lib
namespace Text

/-- The characters `str.strip()` removes. -/
def isSpace (c : Char) : Bool :=
  let n := c.toNat
  (9 ≤ n && n ≤ 13) || (28 ≤ n && n ≤ 32) || n == 0x85 || n == 0xa0 || n == 0x1680 ||
    (0x2000 ≤ n && n ≤ 0x200a) || n == 0x2028 || n == 0x2029 || n == 0x202f || n == 0x205f ||
    n == 0x3000

def stripChars (cs : List Char) : List Char :=
  ((cs.dropWhile isSpace).reverse.dropWhile isSpace).reverse

def strip (s : String) : String := String.ofList (stripChars s.toList)

def hexDigit (n : Nat) : Char := "0123456789abcdef".toList.getD n '0'

/-- `\xhh` -/
def hexEscape (n : Nat) : List Char := ['\\', 'x', hexDigit (n / 16), hexDigit (n % 16)]

def escapeChar (quote c : Char) : List Char :=
  if c = quote ∨ c = '\\' then ['\\', c]
  else if c = '\n' then ['\\', 'n']
  else if c = '\r' then ['\\', 'r']
  else if c = '\t' then ['\\', 't']
  else if c.toNat < 32 ∨ (127 ≤ c.toNat ∧ c.toNat ≤ 160) ∨ c.toNat = 173 then hexEscape c.toNat
  else [c]

/-- `repr` of a string: single quotes, unless it holds single quotes and no double ones. A
character past Latin-1 is taken to be printable. -/
def reprChars (cs : List Char) : List Char :=
  let quote := if cs.contains '\'' && !cs.contains '"' then '"' else '\''
  quote :: cs.flatMap (escapeChar quote) ++ [quote]

/-- `repr(s)` -/
def quoted (s : String) : String := String.ofList (reprChars s.toList)

theorem stripChars_eq (cs : List Char) :
    stripChars cs = (cs.dropWhile isSpace).rdropWhile isSpace := by
  unfold stripChars List.rdropWhile
  rfl

/-- Stripping from the right keeps the first character, unless nothing is left. -/
theorem dropWhile_rdropWhile (cs : List Char) :
    ((cs.dropWhile isSpace).rdropWhile isSpace).dropWhile isSpace =
      (cs.dropWhile isSpace).rdropWhile isSpace := by
  rw [List.dropWhile_eq_self_iff]
  intro hl
  have hpre := List.rdropWhile_prefix isSpace (cs.dropWhile isSpace)
  have hne : 0 < (cs.dropWhile isSpace).length := Nat.lt_of_lt_of_le hl hpre.length_le
  have hhead := List.dropWhile_get_zero_not isSpace cs hne
  rw [List.get_eq_getElem] at hhead
  rwa [hpre.getElem hl]

@[simp] theorem strip_strip (s : String) : strip (strip s) = strip s := by
  have h : stripChars (stripChars s.toList) = stripChars s.toList := by
    rw [stripChars_eq (stripChars s.toList), stripChars_eq s.toList, dropWhile_rdropWhile]
    exact List.rdropWhile_idempotent isSpace _
  unfold strip
  rw [String.toList_ofList, h]

variable {cs : List Char}

theorem mem_of_mem_stripChars {c : Char} (h : c ∈ stripChars cs) : c ∈ cs := by
  have hdropped := (List.dropWhile_sublist isSpace).mem (List.mem_reverse.mp h)
  exact (List.dropWhile_sublist isSpace).mem (List.mem_reverse.mp hdropped)

theorem stripChars_eq_self :
    stripChars cs = cs ↔ cs.dropWhile isSpace = cs ∧ cs.rdropWhile isSpace = cs := by
  rw [stripChars_eq]
  constructor
  · intro h
    have hleft : cs.dropWhile isSpace = cs := by
      refine (List.dropWhile_suffix isSpace).eq_of_length_le ?_
      have hle := (List.rdropWhile_prefix isSpace (cs.dropWhile isSpace)).length_le
      rwa [h] at hle
    rw [hleft] at h
    exact ⟨hleft, h⟩
  · rintro ⟨hleft, hright⟩
    rw [hleft, hright]

/-- Changing characters to ones that are no spaces leaves nothing to strip. -/
theorem stripChars_map {f : Char → Char} (hf : ∀ c, isSpace (f c) = true → isSpace c = true)
    (h : stripChars cs = cs) : stripChars (cs.map f) = cs.map f := by
  obtain ⟨hleft, hright⟩ := stripChars_eq_self.mp h
  rw [List.dropWhile_eq_self_iff] at hleft
  rw [List.rdropWhile_eq_self_iff] at hright
  refine stripChars_eq_self.mpr ⟨List.dropWhile_eq_self_iff.mpr fun hl hspace => ?_,
    List.rdropWhile_eq_self_iff.mpr fun hne hspace => ?_⟩
  · rw [List.length_map] at hl
    rw [List.getElem_map] at hspace
    exact hleft hl (hf _ hspace)
  · have hne' : cs ≠ [] := fun h => hne (by rw [h]; rfl)
    rw [List.getLast_map] at hspace
    exact hright hne' (hf _ hspace)

/-- `s[:n]` -/
def take (n : Nat) (s : String) : String := String.ofList (s.toList.take n)

/-- A text with a character that is no space is not stripped away. -/
theorem strip_ne_empty {s : String} {c : Char} (hc : c ∈ s.toList) (hspace : isSpace c = false) :
    strip s ≠ "" := by
  have hmem : c ∈ s.toList.dropWhile isSpace := by
    rw [← List.takeWhile_append_dropWhile (p := isSpace) (l := s.toList), List.mem_append] at hc
    refine hc.resolve_left fun h => ?_
    rw [List.mem_takeWhile_imp h] at hspace
    cases hspace
  intro h
  have hnil : stripChars s.toList = [] := String.ofList_inj.mp h
  have hall := List.dropWhile_eq_nil_iff.mp (List.reverse_eq_nil_iff.mp hnil)
  rw [hall c (List.mem_reverse.mpr hmem)] at hspace
  cases hspace

/-- Splitting at a separator character, as `str.split(sep)` does: one part more than separators. -/
def splitChars (sep : Char) : List Char → List (List Char)
  | [] => [[]]
  | c :: cs =>
    if c = sep then [] :: splitChars sep cs
    else match splitChars sep cs with
      | [] => [[c]]
      | w :: ws => (c :: w) :: ws

def split (sep : Char) (s : String) : List String := (splitChars sep s.toList).map String.ofList

def isPrefix : List Char → List Char → Bool
  | [], _ => true
  | _ :: _, [] => false
  | a :: as, b :: bs => a == b && isPrefix as bs

def startsWith (s pre : String) : Bool := isPrefix pre.toList s.toList

/-- `pat in s` for lists of characters. -/
def isInfix (pat : List Char) : List Char → Bool
  | [] => pat.isEmpty
  | c :: cs => isPrefix pat (c :: cs) || isInfix pat cs

def contains (s pat : String) : Bool := isInfix pat.toList s.toList

/-- `s.lower()` on ASCII texts. -/
def lower (s : String) : String := String.ofList (s.toList.map Char.toLower)

/-- Only the capital letters change. -/
theorem toNat_toLower (c : Char) :
    c.toLower = c ∨ 65 ≤ c.toNat ∧ c.toNat ≤ 90 ∧ c.toLower.toNat = c.toNat + 32 := by
  unfold Char.toLower
  split
  · rename_i h
    right
    simp only [Char.toNat, UInt32.le_iff_toNat_le, ge_iff_le] at h ⊢
    refine ⟨h.1, h.2, ?_⟩
    have hle : c.val.toNat ≤ 90 := h.2
    rw [UInt32.toNat_add]
    change (c.val.toNat + 32) % 2 ^ 32 = _
    omega
  · exact .inl rfl

theorem isSpace_toLower (c : Char) : isSpace c.toLower = isSpace c := by
  rcases toNat_toLower c with h | ⟨hlow, hhigh, h⟩
  · rw [h]
  · unfold isSpace
    rw [h, Bool.eq_iff_iff]
    simp only [Bool.or_eq_true, Bool.and_eq_true, decide_eq_true_eq, beq_iff_eq]
    omega

theorem toLower_toLower (c : Char) : c.toLower.toLower = c.toLower := by
  rcases toNat_toLower c with h | ⟨hlow, hhigh, h⟩
  · rw [h, h]
  · rcases toNat_toLower c.toLower with h' | ⟨hlow', hhigh', -⟩
    · exact h'
    · omega

@[simp] theorem lower_lower (s : String) : lower (lower s) = lower s := by
  unfold lower
  rw [String.toList_ofList, List.map_map]
  congr 1
  exact List.map_congr_left fun c _ => toLower_toLower c

theorem strip_lower (s : String) : strip (lower s) = lower (strip s) := by
  have hspace : isSpace ∘ Char.toLower = isSpace := funext isSpace_toLower
  unfold strip lower stripChars
  rw [String.toList_ofList, String.toList_ofList, List.dropWhile_map, hspace, ← List.map_reverse,
    List.dropWhile_map, hspace, ← List.map_reverse]

theorem lower_eq_empty {s : String} : lower s = "" ↔ s = "" := by
  unfold lower
  rw [← String.toList_inj, String.toList_ofList, ← String.toList_inj]
  exact List.map_eq_nil_iff

/-- `s.upper()` on ASCII texts. -/
def upper (s : String) : String := String.ofList (s.toList.map Char.toUpper)

/-- `s.replace(old, new)` for single characters. -/
def replaceChar (old new : Char) (s : String) : String :=
  String.ofList (s.toList.map fun c => if c = old then new else c)

theorem replaceChar_of_notMem {old new : Char} {s : String} (h : old ∉ s.toList) :
    replaceChar old new s = s := by
  have hmap : (s.toList.map fun c => if c = old then new else c) = s.toList := by
    refine (List.map_congr_left fun c hc => if_neg ?_).trans (List.map_id _)
    rintro rfl
    exact h hc
  unfold replaceChar
  rw [hmap, String.ofList_toList]

/-- `s.rstrip(c)` -/
def stripRight (c : Char) (s : String) : String := String.ofList (s.toList.rdropWhile (· = c))

/-- `s.endswith(suf)` -/
def endsWith (s suf : String) : Bool := isPrefix suf.toList.reverse s.toList.reverse

/-- The characters that end a line. -/
def isLineBreak (c : Char) : Bool :=
  let n := c.toNat
  (0x0a ≤ n && n ≤ 0x0d) || (0x1c ≤ n && n ≤ 0x1e) || n == 0x85 || n == 0x2028 || n == 0x2029

/-- `s.splitlines()` -/
def splitLines : List Char → List (List Char)
  | [] => []
  | '\r' :: '\n' :: cs => [] :: splitLines cs
  | c :: cs =>
    if isLineBreak c then [] :: splitLines cs
    else match splitLines cs with
      | [] => [[c]]
      | line :: lines => (c :: line) :: lines

end Text

/-! ## The order of texts -/

/-- Texts are compared character by character. -/
def TextLe (a b : String) : Prop := List.le a.toList b.toList

instance : DecidableRel TextLe := fun a b => List.decidableLE a.toList b.toList

theorem TextLe.total (a b : String) : TextLe a b ∨ TextLe b a := List.le_total a.toList b.toList

theorem TextLe.trans {a b c : String} (h : TextLe a b) (h' : TextLe b c) : TextLe a c :=
  List.le_trans h h'

theorem TextLe.antisymm {a b : String} (h : TextLe a b) (h' : TextLe b a) : a = b :=
  String.toList_inj.mp (List.le_antisymm h h')

end Lib
end ZeroRuntime
