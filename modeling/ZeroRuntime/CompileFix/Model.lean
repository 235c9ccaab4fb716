import ZeroRuntime.Lib.PathPattern

/-!
# ZeroRuntime.CompileFix.Model

The repair of a file that does not compile
(`_zero_v734_synthesize_python_compile_fix` in `core/tasks/scheduler_core/retry_repair_helpers.py`).

* `matchDef`, `matchReturn`: the two patterns that are tried on each line. `\w` is a parameter.
* `fixLines`: the loop, with the arguments of the last `def` that was seen.
* `synthesize`: the text is cut with `splitlines` and joined with `\n`.
* `Lex`: the reading of the text as code, comments and string literals.
-/

namespace ZeroRuntime
namespace CompileFix

open Lib Text

/-- `[A-Za-z_]` -/
def nameStart (c : Char) : Bool := c.isAlpha || c == '_'

/-- What stands for `\w`. -/
structure WordClass where
  word : Char → Bool
  start : ∀ c, nameStart c = true → word c = true
  zero : word '0' = true
  space : ∀ c, isSpace c = true → word c = false
  plus : word '+' = false
  parenthesis : word '(' = false

variable (w : WordClass)

/-- `^\s*kw\s+`: what was matched, and the rest. -/
def matchKeyword (kw line : List Char) : Option (List Char × List Char) :=
  let body := line.dropWhile isSpace
  let after := body.drop kw.length
  if isPrefix kw body && !(after.takeWhile isSpace).isEmpty then
    some (line.takeWhile isSpace ++ (kw ++ after.takeWhile isSpace), after.dropWhile isSpace)
  else none

/-- `[A-Za-z_]\w*`: the name, and the rest. -/
def matchName : List Char → Option (List Char × List Char)
  | [] => none
  | c :: cs => if nameStart c then some (c :: cs.takeWhile w.word, cs.dropWhile w.word) else none

/-- `^\s*def\s+[A-Za-z_]\w*\s*\(([^)]*)\)\s*:` -/
def matchDef (line : List Char) : Option (List Char) := do
  let (_, rest) ← matchKeyword "def".toList line
  let (_, rest) ← matchName w rest
  match rest.dropWhile isSpace with
  | '(' :: rest =>
    let after := (rest.dropWhile (· ≠ ')')).drop 1
    if (after.dropWhile isSpace).head? = some ':' then some (rest.takeWhile (· ≠ ')')) else none
  | _ => none

structure ReturnLine where
  lead : List Char
  name : List Char
  gap : List Char
  rest : List Char

/-- `^(\s*return\s+)([A-Za-z_]\w*)\s*\+\s*$` -/
def matchReturn (line : List Char) : Option ReturnLine := do
  let (lead, rest) ← matchKeyword "return".toList line
  let (name, rest) ← matchName w rest
  match rest.dropWhile isSpace with
  | '+' :: tail => if tail.all isSpace then some ⟨lead, name, rest.takeWhile isSpace, tail⟩ else none
  | _ => none

/-- One item of the list of arguments, without its default and its annotation. -/
def parseArg (item : List Char) : Option (List Char) :=
  let name := stripChars ((stripChars item).takeWhile (· ≠ '='))
  let name := if ':' ∈ name then stripChars (name.takeWhile (· ≠ ':')) else name
  match matchName w name with
  | some (_, []) => some name
  | _ => none

def parseArgs (raw : List Char) : List (List Char) := (splitChars ',' raw).filterMap (parseArg w)

def replacementName (args : List (List Char)) (left : List Char) : List Char :=
  match args.find? (· ≠ left), args with
  | some candidate, _ => candidate
  | none, _ :: second :: _ => second
  | none, _ => ['0']

def ReturnLine.fixed (m : ReturnLine) (operand : List Char) : List Char :=
  m.lead ++ (m.name ++ (" + ".toList ++ operand))

/-- The lines as they are left, and whether one was changed. -/
def fixLines : List (List Char) → List (List Char) → List (List Char) × Bool
  | _, [] => ([], false)
  | args, line :: lines =>
    match matchDef w line with
    | some raw =>
      let (fixed, changed) := fixLines (parseArgs w raw) lines
      (line :: fixed, changed)
    | none =>
      let (fixed, changed) := fixLines args lines
      match matchReturn w line with
      | none => (line :: fixed, changed)
      | some m => (m.fixed (replacementName args m.name) :: fixed, true)

/-- `"\n".join(lines)` -/
def joinLines : List (List Char) → List Char
  | [] => []
  | [l] => l
  | l :: m :: lines => l ++ '\n' :: joinLines (m :: lines)

/-- `_zero_v734_synthesize_python_compile_fix(source)` -/
def synthesize (source : String) : Bool × String × String :=
  if strip source = "" then (false, source, "empty source")
  else
    let lines := splitLines source.toList
    if lines.isEmpty then (false, source, "empty source lines")
    else
      let (fixed, changed) := fixLines w [] lines
      if !changed then (false, source, "no supported incomplete return expression found")
      else
        let ending := if endsWith source "\n" then ['\n'] else []
        (true, String.ofList (joinLines fixed ++ ending), "fixed incomplete return expression")

/-! ## Code and string literals -/

/-- Where a character of the text stands: in code, a comment, or a literal with this quote. -/
inductive Lex where
  | code
  | comment
  /-- after one quote -/
  | opened (q : Char)
  /-- after two quotes -/
  | emptied (q : Char)
  | quoted (q : Char)
  /-- after a backslash -/
  | escaped (q : Char)
  /-- between three quotes, after so many that may be the closing ones -/
  | triple (q : Char) (closing : Nat)
  | tripleEscaped (q : Char)
  deriving DecidableEq

def Lex.code' (c : Char) : Lex :=
  if c = '#' then .comment else if c = '\'' ∨ c = '"' then .opened c else .code

/-- A literal in single quotes that is not closed ends with its line. -/
def Lex.quoted' (q c : Char) : Lex :=
  if c = q ∨ c = '\n' then .code else if c = '\\' then .escaped q else .quoted q

def Lex.next : Lex → Char → Lex
  | .code, c => code' c
  | .comment, c => if c = '\n' then .code else .comment
  | .opened q, c => if c = q then .emptied q else quoted' q c
  | .emptied q, c => if c = q then .triple q 0 else code' c
  | .quoted q, c => quoted' q c
  | .escaped q, _ => .quoted q
  | .triple q closing, c =>
    if c = q then if closing = 2 then .code else .triple q (closing + 1)
    else if c = '\\' then .tripleEscaped q else .triple q 0
  | .tripleEscaped q, _ => .triple q 0

/-- Past a line and the `\n` after it. -/
def Lex.line (s : Lex) (line : List Char) : Lex := (line ++ ['\n']).foldl Lex.next s

end CompileFix
end ZeroRuntime
