import NavPolicy.Yaml.Token.Property
import NavPolicy.Yaml.Token.Scalar

/-!
# Tokens of a text

The lexer goes through a text token by token.  Two things are known only later than they are written:
where a block collection ends, which the indentation of a following line tells, and that a node is a
key, which its colon tells.  The lexer therefore keeps the indentations of the open block collections
and, for each open flow collection, the place of the node that may turn out to be a key; if a colon
follows it on the same line, the key token is put in before the tokens of the node.
-/

namespace NavPolicy.Yaml

/-- A node that may turn out to be a key. -/
structure PossibleKey where
  /-- The number of tokens before it. -/
  position : Nat
  line : Nat
  column : Nat
  /-- The text from its first character on. -/
  text : List Char
  /-- Whether its indentation admits nothing but a key. -/
  required : Bool
  deriving DecidableEq, Repr

/-- A lexer on its way through a text. -/
structure Lexer where
  cursor : Cursor
  /-- The tokens so far, the latest first. -/
  tokens : List Token
  /-- The number of tokens so far. -/
  count : Nat
  /-- The column of the innermost open block collection, or `-1`. -/
  indent : Int
  /-- The columns of the block collections around it. -/
  outerIndents : List Int
  /-- Whether a key may start here. -/
  keyAllowed : Bool
  /-- The node that may turn out to be a key. -/
  key : Option PossibleKey
  /-- The same for the flow collections around, the innermost first. -/
  outerKeys : List (Option PossibleKey)
  deriving DecidableEq, Repr

namespace Lexer

/-- The lexer at the start of a text. -/
def start (cs : List Char) : Lexer := ⟨.start cs, [], 0, -1, [], true, none, []⟩

/-- Whether a flow collection is open. -/
def inFlow (s : Lexer) : Bool := !s.outerKeys.isEmpty

/-- The lexer with one more token. -/
def emit (t : Token) (s : Lexer) : Lexer := { s with tokens := t :: s.tokens, count := s.count + 1 }

/-- The lexer with a token put in before those from a position on. -/
def emitAt (position : Nat) (t : Token) (s : Lexer) : Lexer :=
  { s with tokens := s.tokens.insertIdx (s.count - position) t, count := s.count + 1 }

/-- The lexer at another place. -/
def moveTo (c : Cursor) (s : Lexer) : Lexer := { s with cursor := c }

/-- The lexer `n` characters further. -/
def skip (n : Nat) (s : Lexer) : Lexer := s.moveTo (s.cursor.skip n)

/-- The lexer after a decision on whether a key may start. -/
def allowKey (b : Bool) (s : Lexer) : Lexer := { s with keyAllowed := b }

/-! ## Blanks and comments -/

/-- Skips blanks, comments and line breaks.  Outside flow collections a key may start after a break, and
where one may start a tab is no blank. -/
def skipBlank (inFlow : Bool) (keyAllowed inComment : Bool) (line column : Nat) :
    List Char → Cursor × Bool
  | [] => (⟨[], line, column⟩, keyAllowed)
  | c :: cs =>
    if isBreak c then skipBlank inFlow (keyAllowed || !inFlow) false (line + 1) 0 cs
    else if inComment || c = ' ' || (c = '\t' && (inFlow || !keyAllowed)) ||
        (c = '\ufeff' && column = 0) then
      skipBlank inFlow keyAllowed inComment line (column + 1) cs
    else if c = '#' then skipBlank inFlow keyAllowed true line (column + 1) cs
    else (⟨c :: cs, line, column⟩, keyAllowed)

/-- The lexer at the next character that is part of a token. -/
def skipToToken (s : Lexer) : Lexer :=
  let c := s.cursor
  let (c, keyAllowed) := skipBlank s.inFlow s.keyAllowed false c.line c.column c.rest
  { s with cursor := c, keyAllowed := keyAllowed }

/-! ## Possible keys -/

/-- The most bytes of UTF-8 between the start of a key and its colon. -/
def maxKeyLength : Nat := 1024

/-- Whether a colon here would still make a key of the node. -/
def isLive (c : Cursor) (k : PossibleKey) : Bool :=
  k.line = c.line && Text.utf8Length (k.text.take (c.column - k.column)) ≤ maxKeyLength

/-- Gives up the possible key; one that is required must not be given up. -/
def dropKey (s : Lexer) : Except Error Lexer :=
  if s.key.any (·.required) then .error .keyWithoutColon else .ok { s with key := none }

/-- Notes that the node that starts here may turn out to be a key. -/
def saveKey (s : Lexer) : Except Error Lexer :=
  if s.keyAllowed then
    let required := !s.inFlow && s.indent = s.cursor.column
    match s.dropKey with
    | .ok s =>
      let c := s.cursor
      .ok { s with key := some ⟨s.count, c.line, c.column, c.rest, required⟩ }
    | .error e => .error e
  else .ok s

/-- The possible key if it is still one. -/
def liveKey (s : Lexer) : Except Error (Option PossibleKey) :=
  match s.key with
  | none => .ok none
  | some k =>
    if isLive s.cursor k then .ok (some k)
    else if k.required then .error .keyWithoutColon
    else .ok none

/-! ## Indentation -/

/-- The columns of the block collections that stay open at a column, and the number of those that end:
the innermost column first, those around it after it. -/
def closeTo (column : Int) (indent : Int) : List Int → Int × List Int × Nat
  | [] => if indent > column then (-1, [], 1) else (indent, [], 0)
  | outer :: outers =>
    if indent > column then
      let (i, is, n) := closeTo column outer outers
      (i, is, n + 1)
    else (indent, outer :: outers, 0)

/-- Ends the block collections that are indented by more than a column. -/
def unroll (column : Int) (s : Lexer) : Lexer :=
  if s.inFlow then s
  else
    let (indent, outers, n) := closeTo column s.indent s.outerIndents
    { s with
      tokens := List.replicate n .blockEnd ++ s.tokens, count := s.count + n,
      indent := indent, outerIndents := outers }

/-- Starts a block collection at a column if it is indented by more than the one around.  Its token goes
before those from a position on. -/
def roll (column position : Nat) (t : Token) (s : Lexer) : Lexer :=
  if !s.inFlow && s.indent < column then
    { s.emitAt position t with indent := column, outerIndents := s.indent :: s.outerIndents }
  else s

/-! ## Tokens -/

/-- Reads a token that ends all block collections: a directive or a document mark. -/
def documentToken (s : Lexer) (read : Cursor → Except Error (Token × Cursor)) :
    Except Error Lexer := do
  let s ← (s.unroll (-1)).dropKey
  let (t, c) ← read s.cursor
  return ((s.allowKey false).emit t).moveTo c

/-- Reads the start of a flow collection. -/
def flowStart (s : Lexer) (t : Token) : Except Error Lexer := do
  let s ← s.saveKey
  return ({ s with key := none, outerKeys := s.key :: s.outerKeys }.allowKey true).emit t |>.skip 1

/-- Reads the end of a flow collection. -/
def flowEnd (s : Lexer) (t : Token) : Except Error Lexer := do
  let s ← s.dropKey
  let s :=
    match s.outerKeys with
    | key :: outer => { s with key := key, outerKeys := outer }
    | [] => s
  return (s.allowKey false).emit t |>.skip 1

/-- Reads a comma between members of a flow collection. -/
def flowEntry (s : Lexer) : Except Error Lexer := do
  let s ← s.dropKey
  return (s.allowKey true).emit .flowEntry |>.skip 1

/-- Reads the dash of a sequence entry. -/
def blockEntry (s : Lexer) : Except Error Lexer := do
  if !s.inFlow && !s.keyAllowed then throw .misplacedEntry
  let s ← (s.roll s.cursor.column s.count .blockSequenceStart).dropKey
  return (s.allowKey true).emit .blockEntry |>.skip 1

/-- Reads the mark of a key. -/
def explicitKey (s : Lexer) : Except Error Lexer := do
  if !s.inFlow && !s.keyAllowed then throw .misplacedKey
  let s ← (s.roll s.cursor.column s.count .blockMappingStart).dropKey
  return (s.allowKey (!s.inFlow)).emit .key |>.skip 1

/-- Reads the colon before a value.  It makes a key of the node before it, if that may be one. -/
def valueMark (s : Lexer) : Except Error Lexer := do
  match ← s.liveKey with
  | some k =>
    let s := (s.emitAt k.position .key).roll k.column k.position .blockMappingStart
    return ({ s with key := none }.allowKey false).emit .value |>.skip 1
  | none =>
    if !s.inFlow && !s.keyAllowed then throw .misplacedValue
    let s := s.roll s.cursor.column s.count .blockMappingStart
    return ({ s with key := none }.allowKey (!s.inFlow)).emit .value |>.skip 1

/-- Reads a token that belongs to a node and may start a key. -/
def nodeToken (s : Lexer) (read : Cursor → Except Error (Token × Cursor)) : Except Error Lexer := do
  let s ← s.saveKey
  let (t, c) ← read s.cursor
  return ((s.allowKey false).emit t).moveTo c

/-- Reads a quoted scalar. -/
def quotedScalar (style : ScalarStyle) (c : Cursor) : Except Error (Token × Cursor) := do
  let c := c.skip 1
  let r ←
    match style with
    | .singleQuoted => readSingleQuoted c.line c.column .none c.rest
    | _ => readDoubleQuoted c.line c.column (.text .none) c.rest
  return (.scalar style (String.ofList r.text), r.cursor)

/-- Reads a plain scalar; a key may start after it if it ends with its line. -/
def plainScalar (s : Lexer) : Except Error Lexer := do
  let s ← s.saveKey
  let c := s.cursor
  let r ← readPlain s.inFlow (s.indent + 1) c.line c.column .none c.rest
  return ((s.allowKey r.passedBreak).emit (.scalar .plain (String.ofList r.text))).moveTo r.cursor

/-- Reads a block scalar. -/
def blockScalar (s : Lexer) (style : ScalarStyle) : Except Error Lexer := do
  let s ← s.dropKey
  let r ← readBlock (style = .folded) s.indent (s.cursor.skip 1)
  return ((s.allowKey true).emit (.scalar style (String.ofList r.text))).moveTo r.cursor

/-- Whether a plain scalar may start with a character, given what follows it. -/
def startsPlain (inFlow : Bool) (c : Char) (cs : List Char) : Bool :=
  if c = '-' then !cs.head?.any isGap
  else if c = '?' || c = ':' then !inFlow && !endsWord cs
  else !(endsWord [c] || isFlowMark c || "#&*!|>'\"%@`".toList.contains c)

/-- Reads the end of the text. -/
def finish (s : Lexer) : Except Error Lexer := do
  let s ← (s.unroll (-1)).dropKey
  return (s.allowKey false).emit .streamEnd

/-- Reads the token that starts with a character, at which the lexer stands. -/
def token (s : Lexer) (c : Char) (cs : List Char) : Except Error Lexer :=
  let lineStart := s.cursor.column = 0
  if lineStart && c = '%' then s.documentToken fun c => readDirective (c.skip 1)
  else if lineStart && isMark '-' (c :: cs) then
    s.documentToken fun c => .ok (.documentStart, c.skip 3)
  else if lineStart && isMark '.' (c :: cs) then
    s.documentToken fun c => .ok (.documentEnd, c.skip 3)
  else if c = '[' then s.flowStart .flowSequenceStart
  else if c = '\x7b' then s.flowStart .flowMappingStart
  else if c = ']' then s.flowEnd .flowSequenceEnd
  else if c = '\x7d' then s.flowEnd .flowMappingEnd
  else if c = ',' then s.flowEntry
  else if c = '-' && endsWord cs then s.blockEntry
  else if c = '?' && (s.inFlow || endsWord cs) then s.explicitKey
  else if c = ':' && (s.inFlow || endsWord cs) then s.valueMark
  else if c = '*' then s.nodeToken fun c => do
    let (name, c) ← readName (c.skip 1)
    return (.reference name, c)
  else if c = '&' then s.nodeToken fun c => do
    let (name, c) ← readName (c.skip 1)
    return (.anchor name, c)
  else if c = '!' then s.nodeToken (readTag s.inFlow)
  else if c = '|' && !s.inFlow then s.blockScalar .literal
  else if c = '>' && !s.inFlow then s.blockScalar .folded
  else if c = '\'' then s.nodeToken (quotedScalar .singleQuoted)
  else if c = '"' then s.nodeToken (quotedScalar .doubleQuoted)
  else if startsPlain s.inFlow c cs then s.plainScalar
  else .error (.unexpectedCharacter c)

/-- The lexer at its next token, with the block collections that end before it ended. -/
def approach (s : Lexer) : Lexer :=
  let s := s.skipToToken
  s.unroll s.cursor.column

/-- Reads all tokens from here on.  Every token takes characters away, which is checked as it goes. -/
def run (s : Lexer) : Except Error (List Token) :=
  let here := s.approach
  match here.cursor.rest with
  | [] => here.finish.map (·.tokens.reverse)
  | c :: cs =>
    match here.token c cs with
    | .error e => .error e
    | .ok next =>
      if next.cursor.rest.length < s.cursor.rest.length then run next
      else .error (.unexpectedCharacter c)
termination_by s.cursor.rest.length

end Lexer

/-- The tokens of a text. -/
def Token.ofText (text : String) : Except Error (List Token) :=
  if text.toList.all isAllowed then (Lexer.start (uniformBreaks text.toList)).run
  else .error .forbiddenCharacter

end NavPolicy.Yaml
