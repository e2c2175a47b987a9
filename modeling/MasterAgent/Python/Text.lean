/-
  MasterAgent.Python.Text

  What the plugins do with texts: `str`, `str.strip`, and `re.search` for
  patterns that are sequences of anchors, characters and greedy repetitions of
  character classes, with at most one group.  The texts that `str` makes of
  values other than strings are a parameter.
-/

import MasterAgent.Python.Value

namespace MasterAgent

/-- `str(v)`: a string is its own text. -/
def Json.text (str : Json → PyStr) : Json → PyStr
  | .str s => s
  | v => str v

/-- `c.isspace()`, and what `\s` matches. -/
def isSpace (c : CodePoint) : Bool :=
  decide (0x9 ≤ c.val ∧ c.val ≤ 0xd) || decide (0x1c ≤ c.val ∧ c.val ≤ 0x20) ||
    decide (0x2000 ≤ c.val ∧ c.val ≤ 0x200a) ||
    [0x85, 0xa0, 0x1680, 0x2028, 0x2029, 0x202f, 0x205f, 0x3000].contains c.val

/-- `s.strip()`. -/
def strip (s : PyStr) : PyStr :=
  ((s.dropWhile isSpace).reverse.dropWhile isSpace).reverse

-- ============================================================================
-- Patterns
-- ============================================================================

/-- A piece of a pattern under `re.MULTILINE`. -/
inductive Piece where
  /-- `^`. -/
  | lineStart
  /-- `$`. -/
  | lineEnd
  | one (p : CodePoint → Bool)
  /-- `[p]*`. -/
  | many (p : CodePoint → Bool)
  /-- `([p]+)`. -/
  | group (p : CodePoint → Bool)

namespace Piece

def newline : CodePoint := codePoint '\n'

/-- `.`. -/
def dot (c : CodePoint) : Bool := c != newline

/-- `\s*`. -/
def spaces : Piece := many isSpace

/-- The characters of a literal. -/
def literal (s : String) : List Piece := (py s).map fun c => one (· == c)

/-- The ways to match `[p]*` at the start of a text, the longest first. -/
def runs (p : CodePoint → Bool) : PyStr → List (PyStr × PyStr)
  | [] => [([], [])]
  | c :: text =>
      if p c then (runs p text).map (fun r => (c :: r.1, r.2)) ++ [([], c :: text)]
      else [([], c :: text)]

/-- Match at one position, after the character `prev`.  The result is what the
    group matched; an alternative is tried when the rest of the pattern fails. -/
def matchAt : List Piece → (prev : Option CodePoint) → (text : PyStr) → Option PyStr
  | [], _, _ => some []
  | .lineStart :: pieces, prev, text =>
      if prev.all (· == newline) then matchAt pieces prev text else none
  | .lineEnd :: pieces, prev, text =>
      if text.head?.all (· == newline) then matchAt pieces prev text else none
  | .one _ :: _, _, [] => none
  | .one p :: pieces, _, c :: text => if p c then matchAt pieces (some c) text else none
  | .many p :: pieces, prev, text =>
      (runs p text).findSome? fun r => matchAt pieces (r.1.getLast?.or prev) r.2
  | .group p :: pieces, prev, text =>
      (runs p text).findSome? fun r =>
        if r.1.isEmpty then none
        else (matchAt pieces (r.1.getLast?.or prev) r.2).map fun _ => r.1

/-- The first match from some position on. -/
def searchFrom (pattern : List Piece) : (prev : Option CodePoint) → (text : PyStr) → Option PyStr
  | prev, [] => matchAt pattern prev []
  | prev, c :: text => (matchAt pattern prev (c :: text)).or (searchFrom pattern (some c) text)

/-- `re.search(pattern, text)`, by what the group matched. -/
def search (pattern : List Piece) (text : PyStr) : Option PyStr := searchFrom pattern none text

end Piece

end MasterAgent
