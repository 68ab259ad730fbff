/-!
# Places in a YAML text

A cursor is what is left of a text together with the line and the column at which it starts.  Line
breaks are made uniform before a text is read (`uniformBreaks`), so that only three characters break
lines: the line feed, which stands for all the usual breaks, and the line and paragraph separators.
-/

namespace NavPolicy.Yaml

/-- What is left of a text, and where it starts. -/
structure Cursor where
  rest : List Char
  line : Nat
  column : Nat
  deriving DecidableEq, Repr

/-! ## Classes of characters -/

/-- Space and tab. -/
def isGap (c : Char) : Bool := c = ' ' || c = '\t'

/-- The characters that break lines once breaks are uniform. -/
def isBreak (c : Char) : Bool := c = '\n' || c = '\u2028' || c = '\u2029'

/-- Whether a text is at its end, or at a gap or a line break. -/
def endsWord : List Char → Bool
  | [] => true
  | c :: _ => isGap c || isBreak c

/-- The characters of names: letters, digits, dash and underscore. -/
def isNameChar (c : Char) : Bool := c.isAlphanum || c = '-' || c = '_'

/-- The characters that may separate members of flow collections. -/
def isFlowMark (c : Char) : Bool :=
  c = ',' || c = '[' || c = ']' || c = '\x7b' || c = '\x7d'

/-- The characters that a text may have. -/
def isAllowed (c : Char) : Bool :=
  let n := c.toNat
  c = '\t' || c = '\n' || c = '\r' || (0x20 ≤ n && n ≤ 0x7E) || n = 0x85 ||
    (0xA0 ≤ n && n ≤ 0xD7FF) || (0xE000 ≤ n && n ≤ 0xFFFD) || 0x10000 ≤ n

/-- Makes one line feed of a carriage return with or without a line feed and of a next-line
character. -/
def uniformBreaks : List Char → List Char
  | [] => []
  | '\r' :: '\n' :: cs => '\n' :: uniformBreaks cs
  | c :: cs => (if c = '\r' || c = '\u0085' then '\n' else c) :: uniformBreaks cs

/-- Whether a text starts with a mark of three equal characters that stands alone. -/
def isMark (m : Char) : List Char → Bool
  | a :: b :: c :: cs => a = m && b = m && c = m && endsWord cs
  | _ => false

/-- Whether a line starts with the mark of the start or the end of a document. -/
def isDocumentMark (cs : List Char) : Bool := isMark '-' cs || isMark '.' cs

namespace Cursor

/-- The start of a text. -/
def start (cs : List Char) : Cursor := ⟨cs, 0, 0⟩

/-- The place `n` characters further on the same line. -/
def skip (c : Cursor) (n : Nat) : Cursor := ⟨c.rest.drop n, c.line, c.column + n⟩

/-- The place after the characters with a property that come next on the line. -/
def skipWhile (c : Cursor) (p : Char → Bool) : Cursor :=
  let run := c.rest.takeWhile p
  ⟨c.rest.drop run.length, c.line, c.column + run.length⟩

/-- The place after a line break, if one comes next. -/
def skipBreak (c : Cursor) : Cursor :=
  match c.rest with
  | b :: rest => if isBreak b then ⟨rest, c.line + 1, 0⟩ else c
  | [] => c

/-- The place before the break that ends the line. -/
def skipLine (c : Cursor) : Cursor := c.skipWhile fun d => !isBreak d

/-- Whether the line, or the text, ends here. -/
def atLineEnd (c : Cursor) : Bool :=
  match c.rest with
  | [] => true
  | b :: _ => isBreak b

/-- The place after the gap, the comment and the break that end a line, if nothing else does. -/
def endLine? (c : Cursor) : Option Cursor :=
  let c := c.skipWhile isGap
  let c := if c.rest.head? = some '#' then c.skipLine else c
  if c.atLineEnd then some c.skipBreak else none

end Cursor

end NavPolicy.Yaml
