import NavPolicy.Text.Digits
import NavPolicy.Yaml.Cursor
import NavPolicy.Yaml.Error

/-!
# The text of scalars

Scalars are written plain, in single or double quotes, or as blocks of lines.  Each form has a reader
that gives the text of the scalar and the place after it.

## Folding

Between the words of a plain or quoted scalar stands a gap (`Gap`): blanks of one line, which stay as
they are, or line breaks, with the blanks around them dropped.  A single line feed becomes a space,
and of several the first is dropped; other breaks stay.

## Blocks

A block scalar has an indentation, given by its first line or found from its content.  Lines are joined
by their breaks in a literal block; a folded block turns the break between two lines into a space
unless one of them starts with a blank.
-/

namespace NavPolicy.Yaml

/-! ## Gaps between words -/

/-- What stands between two words of a scalar. -/
inductive Gap where
  /-- Blanks of one line. -/
  | blanks (cs : List Char)
  /-- A line break, empty if it was escaped, and the breaks that follow it. -/
  | lines (first more : List Char)
  deriving DecidableEq, Repr

namespace Gap

/-- No gap. -/
def none : Gap := .blanks []

/-- Whether there is a gap. -/
def isSome : Gap → Bool
  | blanks cs => !cs.isEmpty
  | lines _ _ => true

/-- Whether the gap reaches over a line break. -/
def hasBreak : Gap → Bool
  | blanks _ => false
  | lines _ _ => true

/-- The gap with one more blank. -/
def addBlank (c : Char) : Gap → Gap
  | blanks cs => .blanks (cs ++ [c])
  | lines first more => .lines first more

/-- The gap with one more line break. -/
def addBreak (c : Char) : Gap → Gap
  | blanks _ => .lines [c] []
  | lines first more => .lines first (more ++ [c])

/-- What the gap adds to the text. -/
def text : Gap → List Char
  | blanks cs => cs
  | lines first more =>
    if first = ['\n'] then (if more.isEmpty then [' '] else more) else first ++ more

end Gap

/-- What reading a scalar gives: its text, the place after it, and whether a line break was passed at
the end. -/
structure ScalarRead where
  text : List Char
  cursor : Cursor
  passedBreak : Bool
  deriving DecidableEq, Repr

/-- Puts characters in front of the text of what is read. -/
def prependText (cs : List Char) (r : Except Error ScalarRead) : Except Error ScalarRead :=
  match r with
  | .ok r => .ok { r with text := cs ++ r.text }
  | .error e => .error e

/-! ## Plain scalars -/

/-- Reads a plain scalar.  It ends where a comment or a document mark starts after a gap, where a later
line is not indented enough, at a colon that ends a word, and inside flow collections at their marks. -/
def readPlain (inFlow : Bool) (indent : Int) (line column : Nat) (gap : Gap) :
    List Char → Except Error ScalarRead
  | [] => .ok ⟨[], ⟨[], line, column⟩, gap.hasBreak⟩
  | c :: cs =>
    if isGap c then
      if gap.hasBreak && column < indent && c = '\t' then .error .tabInIndentation
      else readPlain inFlow indent line (column + 1) (gap.addBlank c) cs
    else if isBreak c then readPlain inFlow indent (line + 1) 0 (gap.addBreak c) cs
    else if gap.isSome && (c = '#' || (column = 0 && isDocumentMark (c :: cs)) ||
        (!inFlow && column < indent)) then
      .ok ⟨[], ⟨c :: cs, line, column⟩, gap.hasBreak⟩
    else if inFlow && c = ':' && cs.head?.any (fun d => isFlowMark d || d = '?') then
      .error .misplacedColon
    else if (c = ':' && endsWord cs) || (inFlow && isFlowMark c) then
      .ok ⟨[], ⟨c :: cs, line, column⟩, gap.hasBreak⟩
    else prependText (gap.text ++ [c]) (readPlain inFlow indent line (column + 1) .none cs)

/-! ## Quoted scalars -/

/-- Reads a scalar in single quotes from after the opening quote; a quote in it is written twice. -/
def readSingleQuoted (line column : Nat) (gap : Gap) : List Char → Except Error ScalarRead
  | [] => .error .unclosedQuote
  | c :: cs =>
    if isGap c then readSingleQuoted line (column + 1) (gap.addBlank c) cs
    else if isBreak c then readSingleQuoted (line + 1) 0 (gap.addBreak c) cs
    else if column = 0 && isDocumentMark (c :: cs) then .error .documentMarkInQuote
    else if c = '\'' then
      match cs with
      | '\'' :: cs => prependText (gap.text ++ [c]) (readSingleQuoted line (column + 2) .none cs)
      | cs => .ok ⟨gap.text, ⟨cs, line, column + 1⟩, false⟩
    else prependText (gap.text ++ [c]) (readSingleQuoted line (column + 1) .none cs)

/-- What a letter after a backslash means. -/
inductive Escape where
  /-- It stands for a character. -/
  | char (c : Char)
  /-- The code point follows in this many hexadecimal digits. -/
  | code (digits : Nat)
  deriving DecidableEq, Repr

/-- The meaning of a letter after a backslash. -/
def escape? (c : Char) : Option Escape :=
  if c = '0' then some (.char '\x00')
  else if c = 'a' then some (.char '\x07')
  else if c = 'b' then some (.char '\x08')
  else if c = 't' || c = '\t' then some (.char '\t')
  else if c = 'n' then some (.char '\n')
  else if c = 'v' then some (.char '\x0b')
  else if c = 'f' then some (.char '\x0c')
  else if c = 'r' then some (.char '\r')
  else if c = 'e' then some (.char '\x1b')
  else if c = ' ' then some (.char ' ')
  else if c = '"' then some (.char '"')
  else if c = '/' then some (.char '/')
  else if c = '\\' then some (.char '\\')
  else if c = 'N' then some (.char '\u0085')
  else if c = '_' then some (.char '\u00a0')
  else if c = 'L' then some (.char '\u2028')
  else if c = 'P' then some (.char '\u2029')
  else if c = 'x' then some (.code 2)
  else if c = 'u' then some (.code 4)
  else if c = 'U' then some (.code 8)
  else none

/-- The character with a code point, if it has one. -/
def charOfCode? (n : Nat) : Option Char := if n.isValidChar then some (Char.ofNat n) else none

/-- Where a reader of double quotes stands. -/
inductive QuoteState where
  /-- Between characters, after a gap. -/
  | text (gap : Gap)
  /-- After a backslash. -/
  | backslash
  /-- Inside an escape, with hexadecimal digits to come after those with this value. -/
  | code (digits value : Nat)
  deriving DecidableEq, Repr

/-- Reads a scalar in double quotes from after the opening quote. -/
def readDoubleQuoted (line column : Nat) : QuoteState → List Char → Except Error ScalarRead
  | _, [] => .error .unclosedQuote
  | .text gap, c :: cs =>
    if isGap c then readDoubleQuoted line (column + 1) (.text (gap.addBlank c)) cs
    else if isBreak c then readDoubleQuoted (line + 1) 0 (.text (gap.addBreak c)) cs
    else if column = 0 && isDocumentMark (c :: cs) then .error .documentMarkInQuote
    else if c = '"' then .ok ⟨gap.text, ⟨cs, line, column + 1⟩, false⟩
    else if c = '\\' then
      prependText gap.text (readDoubleQuoted line (column + 1) .backslash cs)
    else prependText (gap.text ++ [c]) (readDoubleQuoted line (column + 1) (.text .none) cs)
  | .backslash, c :: cs =>
    if isBreak c then readDoubleQuoted (line + 1) 0 (.text (.lines [] [])) cs
    else
      match escape? c with
      | some (.char d) =>
        prependText [d] (readDoubleQuoted line (column + 1) (.text .none) cs)
      | some (.code digits) => readDoubleQuoted line (column + 1) (.code digits 0) cs
      | none => .error .badEscape
  | .code digits value, c :: cs =>
    match Text.digitInBase? 16 c with
    | none => .error .badEscape
    | some d =>
      if digits ≤ 1 then
        match charOfCode? (value * 16 + d) with
        | some e => prependText [e] (readDoubleQuoted line (column + 1) (.text .none) cs)
        | none => .error .badEscape
      else readDoubleQuoted line (column + 1) (.code (digits - 1) (value * 16 + d)) cs

/-! ## Block scalars -/

/-- Which line breaks at the end of a block scalar stay. -/
inductive Chomping where
  /-- None. -/
  | strip
  /-- The first. -/
  | clip
  /-- All. -/
  | keep
  deriving DecidableEq, Repr

/-- The first line of a block scalar. -/
structure BlockHeader where
  chomping : Chomping
  /-- The indentation that is asked for, relative to the block around. -/
  indent : Option Nat
  deriving DecidableEq, Repr

/-- Reads the chomping mark of a block header. -/
def readChomping? : List Char → Option (Chomping × List Char)
  | '+' :: cs => some (.keep, cs)
  | '-' :: cs => some (.strip, cs)
  | _ => none

/-- Reads the digit of a block header; zero is none. -/
def readIndent? : List Char → Except Error (Option Nat × List Char)
  | c :: cs =>
    if c = '0' then .error .badBlockHeader
    else if c.isDigit then .ok (some (c.toNat - 0x30), cs)
    else .ok (none, c :: cs)
  | [] => .ok (none, [])

/-- Reads the marks of a block header, which come in either order. -/
def readBlockMarks (cs : List Char) : Except Error (BlockHeader × List Char) :=
  match readChomping? cs with
  | some (chomping, cs) =>
    match readIndent? cs with
    | .ok (indent, cs) => .ok (⟨chomping, indent⟩, cs)
    | .error e => .error e
  | none =>
    match readIndent? cs with
    | .error e => .error e
    | .ok (none, cs) => .ok (⟨.clip, none⟩, cs)
    | .ok (some indent, cs) =>
      match readChomping? cs with
      | some (chomping, cs) => .ok (⟨chomping, some indent⟩, cs)
      | none => .ok (⟨.clip, some indent⟩, cs)

/-- The farthest column at which one of the blank lines before a block's content, or the first line of
it, starts. -/
def contentColumn (column farthest : Nat) : List Char → Except Error Nat
  | [] => .ok (max farthest column)
  | c :: cs =>
    if c = ' ' then contentColumn (column + 1) farthest cs
    else if c = '\t' then .error .tabInIndentation
    else if isBreak c then contentColumn 0 (max farthest column) cs
    else .ok (max farthest column)

/-- Where a reader of a block scalar stands. -/
inductive BlockState where
  /-- In the indentation of a line, after a content line that ended with a break, and with the breaks of
  blank lines since. -/
  | indentation (lineEnd blankLines : List Char)
  /-- In the content of a line. -/
  | content
  deriving DecidableEq, Repr

/-- What the breaks before a content line add to a block scalar. -/
def joinLines (folded blankBefore blankAfter : Bool) (lineEnd blankLines : List Char) : List Char :=
  if folded && lineEnd = ['\n'] && !blankBefore && !blankAfter then
    (if blankLines.isEmpty then [' '] else blankLines)
  else lineEnd ++ blankLines

/-- What the breaks after the last content line add to a block scalar. -/
def chomp (chomping : Chomping) (lineEnd blankLines : List Char) : List Char :=
  match chomping with
  | .strip => []
  | .clip => lineEnd
  | .keep => lineEnd ++ blankLines

/-- Reads the lines of a block scalar with a known indentation.  `blankBefore` tells whether the last
content line started with a blank. -/
def readBlockLines (folded : Bool) (chomping : Chomping) (indent : Nat) (line column : Nat)
    (blankBefore : Bool) : BlockState → List Char → Except Error ScalarRead
  | .indentation lineEnd blankLines, [] =>
    .ok ⟨chomp chomping lineEnd blankLines, ⟨[], line, column⟩, false⟩
  | .content, [] => .ok ⟨[], ⟨[], line, column⟩, false⟩
  | .indentation lineEnd blankLines, c :: cs =>
    if column < indent && c = ' ' then
      readBlockLines folded chomping indent line (column + 1) blankBefore
        (.indentation lineEnd blankLines) cs
    else if column < indent && c = '\t' then .error .tabInIndentation
    else if isBreak c then
      readBlockLines folded chomping indent (line + 1) 0 blankBefore
        (.indentation lineEnd (blankLines ++ [c])) cs
    else if column = indent then
      prependText (joinLines folded blankBefore (isGap c) lineEnd blankLines ++ [c])
        (readBlockLines folded chomping indent line (column + 1) (isGap c) .content cs)
    else .ok ⟨chomp chomping lineEnd blankLines, ⟨c :: cs, line, column⟩, false⟩
  | .content, c :: cs =>
    if isBreak c then
      readBlockLines folded chomping indent (line + 1) 0 blankBefore (.indentation [c] []) cs
    else
      prependText [c] (readBlockLines folded chomping indent line (column + 1) blankBefore .content cs)

/-- Reads a block scalar from after its indicator, given the indentation of the block around. -/
def readBlock (folded : Bool) (parentIndent : Int) (c : Cursor) : Except Error ScalarRead :=
  match readBlockMarks c.rest with
  | .error e => .error e
  | .ok (header, rest) =>
    match (c.skip (c.rest.length - rest.length)).endLine? with
    | none => .error .badBlockHeader
    | some c =>
      let read (indent : Nat) :=
        readBlockLines folded header.chomping indent c.line c.column false
          (.indentation [] []) c.rest
      match header.indent with
      | some n => read (max parentIndent 0 + n).toNat
      | none =>
        match contentColumn c.column 0 c.rest with
        | .ok column => read (max (max (column : Int) (parentIndent + 1)) 1).toNat
        | .error e => .error e

end NavPolicy.Yaml
