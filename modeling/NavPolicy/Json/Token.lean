import NavPolicy.Json.Value
import NavPolicy.Text.Digits

/-!
# JSON tokens

The words of a JSON text: brackets, separators, literals, numbers and strings, with blanks between
them dropped.  A token has one written form (`Token.write`); a string and a number may be written in
several ways, all of which are read (`lex`).

## Strings

The content of a string is read in two steps.  `readPieces` splits it into plain characters and
16-bit units given by escapes, and `joinPieces` puts the units together: two halves of a surrogate
pair make one character, and half a pair alone makes the string stand for no text.
-/

namespace NavPolicy.Json

/-- The words of a JSON text. -/
inductive Token where
  | openArray
  | closeArray
  | openObject
  | closeObject
  | comma
  | colon
  | null
  | bool (b : Bool)
  | number (n : Numeral)
  | string (t : Text)
  deriving DecidableEq, Repr

/-! ## Characters and escapes -/

/-- The characters that may stand between tokens. -/
def isSpace (c : Char) : Bool := c = ' ' || c = '\t' || c = '\n' || c = '\r'

/-- The letter that is written after a backslash for a character, where there is one. -/
def shortEscape? (c : Char) : Option Char :=
  if c = '"' then some '"'
  else if c = '\\' then some '\\'
  else if c = '\x08' then some 'b'
  else if c = '\x0c' then some 'f'
  else if c = '\n' then some 'n'
  else if c = '\r' then some 'r'
  else if c = '\t' then some 't'
  else none

/-- The character that a letter after a backslash stands for; a slash may be escaped as well. -/
def unescape? (c : Char) : Option Char :=
  if c = '"' then some '"'
  else if c = '\\' then some '\\'
  else if c = '/' then some '/'
  else if c = 'b' then some '\x08'
  else if c = 'f' then some '\x0c'
  else if c = 'n' then some '\n'
  else if c = 'r' then some '\r'
  else if c = 't' then some '\t'
  else none

/-- How a character is written inside a string. -/
def escapeChar (c : Char) : List Char :=
  match shortEscape? c with
  | some letter => ['\\', letter]
  | none =>
    if c.toNat < 0x20 then
      ['\\', 'u', '0', '0', Text.lowerHexDigit (c.toNat / 16), Text.lowerHexDigit (c.toNat % 16)]
    else [c]

/-- How a string is written, quotes included; one that stands for no text as half a pair. -/
def writeText : Text → List Char
  | some s => '"' :: (s.toList.flatMap escapeChar ++ ['"'])
  | none => "\"\\ud800\"".toList

/-- A piece of a string: a character, or a 16-bit unit given by an escape. -/
inductive Piece where
  | char (c : Char)
  | unit (n : Nat)
  deriving DecidableEq, Repr

/-- Whether a unit is the first half of a surrogate pair. -/
def isHighHalf (n : Nat) : Bool := 0xD800 ≤ n && n < 0xDC00

/-- Whether a unit is the second half of a surrogate pair. -/
def isLowHalf (n : Nat) : Bool := 0xDC00 ≤ n && n < 0xE000

/-- The characters that pieces stand for, unless half a surrogate pair stands alone. -/
def joinPieces : List Piece → Option (List Char)
  | [] => some []
  | .char c :: ps => (joinPieces ps).map (c :: ·)
  | .unit n :: ps =>
    if isHighHalf n then
      match ps with
      | .unit m :: ps =>
        if isLowHalf m then
          (joinPieces ps).map (Char.ofNat (0x10000 + (n - 0xD800) * 0x400 + (m - 0xDC00)) :: ·)
        else none
      | _ => none
    else if isLowHalf n then none
    else (joinPieces ps).map (Char.ofNat n :: ·)

/-- Reads the pieces of a string up to its closing quote; also gives what follows the quote. -/
def readPieces : List Char → Option (List Piece × List Char)
  | [] => none
  | '"' :: rest => some ([], rest)
  | '\\' :: 'u' :: a :: b :: c :: d :: rest =>
    match Text.readBase? 16 [a, b, c, d] with
    | some n => (readPieces rest).map fun (ps, rest) => (.unit n :: ps, rest)
    | none => none
  | '\\' :: e :: rest =>
    match unescape? e with
    | some c => (readPieces rest).map fun (ps, rest) => (.char c :: ps, rest)
    | none => none
  | c :: rest =>
    if c = '\\' || c.toNat < 0x20 then none
    else (readPieces rest).map fun (ps, rest) => (.char c :: ps, rest)

theorem length_of_readPieces {cs : List Char} {ps : List Piece} {rest : List Char}
    (h : readPieces cs = some (ps, rest)) : rest.length < cs.length := by
  fun_induction readPieces cs generalizing ps rest with
  | case1 => simp at h
  | case2 => simp_all
  | case3 _ _ _ _ _ _ _ ih =>
    obtain ⟨⟨qs, r⟩, hr, heq⟩ := Option.map_eq_some_iff.1 h
    simp only [Prod.mk.injEq] at heq
    have := ih hr
    simp_all only [List.length_cons]
    omega
  | case4 => simp at h
  | case5 _ _ _ _ _ ih =>
    obtain ⟨⟨qs, r⟩, hr, heq⟩ := Option.map_eq_some_iff.1 h
    simp only [Prod.mk.injEq] at heq
    have := ih hr
    simp_all only [List.length_cons]
    omega
  | case6 => simp at h
  | case7 => simp at h
  | case8 _ _ _ _ _ _ ih =>
    obtain ⟨⟨qs, r⟩, hr, heq⟩ := Option.map_eq_some_iff.1 h
    simp only [Prod.mk.injEq] at heq
    have := ih hr
    simp_all only [List.length_cons]
    omega

/-! ## Numbers -/

/-- The characters that numbers are written with. -/
def isNumeralChar (c : Char) : Bool :=
  c.isDigit || c = '-' || c = '+' || c = '.' || c = 'e' || c = 'E'

/-- Whether a text is a nonempty run of digits. -/
def isDigits (cs : List Char) : Bool := !cs.isEmpty && cs.all Char.isDigit

/-- Whether a text is the part of a number from its exponent letter on; it may be absent. -/
def isExponent : List Char → Bool
  | [] => true
  | e :: cs =>
    (e = 'e' || e = 'E') &&
      match cs with
      | '+' :: ds => isDigits ds
      | '-' :: ds => isDigits ds
      | ds => isDigits ds

/-- Whether a text is the part of a number that follows its whole part. -/
def isFractionAndExponent : List Char → Bool
  | '.' :: cs => isDigits (cs.takeWhile Char.isDigit) && isExponent (cs.dropWhile Char.isDigit)
  | cs => isExponent cs

/-- The number that a text without sign spells.  A whole part of several digits starts with none
of them a zero. -/
def readUnsigned? (negative : Bool) (written cs : List Char) : Option Numeral :=
  let whole := cs.takeWhile Char.isDigit
  let rest := cs.dropWhile Char.isDigit
  if whole.length > 1 && whole.head? = some '0' then none
  else
    match Text.readNat? whole with
    | none => none
    | some n =>
      if rest.isEmpty then some (.integer negative n)
      else if isFractionAndExponent rest then some (.decimal (String.ofList written))
      else none

/-- The number that a text spells. -/
def readNumeral? (cs : List Char) : Option Numeral :=
  match cs with
  | '-' :: ds => readUnsigned? true cs ds
  | ds => readUnsigned? false cs ds

/-- How a number is written. -/
def writeNumeral : Numeral → List Char
  | .integer negative n => if negative then '-' :: Text.natDigits n else Text.natDigits n
  | .decimal written => written.toList

/-! ## Tokens -/

/-- How a token is written. -/
def Token.write : Token → List Char
  | openArray => ['[']
  | closeArray => [']']
  | openObject => ['\x7b']
  | closeObject => ['\x7d']
  | comma => [',']
  | colon => [':']
  | null => "null".toList
  | bool true => "true".toList
  | bool false => "false".toList
  | number n => writeNumeral n
  | string t => writeText t

/-- The token that is written as a single mark. -/
def mark? (c : Char) : Option Token :=
  if c = '[' then some .openArray
  else if c = ']' then some .closeArray
  else if c = '\x7b' then some .openObject
  else if c = '\x7d' then some .closeObject
  else if c = ',' then some .comma
  else if c = ':' then some .colon
  else none

/-- The token that is written as a word. -/
def word? (cs : List Char) : Option Token :=
  if cs = "null".toList then some .null
  else if cs = "true".toList then some (.bool true)
  else if cs = "false".toList then some (.bool false)
  else none

/-- The tokens of a text, unless a part of it is none. -/
def lex : List Char → Option (List Token)
  | [] => some []
  | c :: cs =>
    if isSpace c then lex cs
    else
      match mark? c with
      | some t => (lex cs).map (t :: ·)
      | none =>
        if c = '"' then
          match _h : readPieces cs with
          | some (pieces, rest) =>
            (lex rest).map (.string ((joinPieces pieces).map String.ofList) :: ·)
          | none => none
        else if isNumeralChar c then
          match readNumeral? (c :: cs.takeWhile isNumeralChar) with
          | some n => (lex (cs.dropWhile isNumeralChar)).map (.number n :: ·)
          | none => none
        else
          match word? (c :: cs.takeWhile Char.isAlpha) with
          | some t => (lex (cs.dropWhile Char.isAlpha)).map (t :: ·)
          | none => none
termination_by cs => cs.length
decreasing_by
  · simp
  · simp
  · have := length_of_readPieces _h
    simp only [List.length_cons]
    omega
  · have := (List.dropWhile_sublist (p := isNumeralChar) (l := cs)).length_le
    simp only [List.length_cons]
    omega
  · have := (List.dropWhile_sublist (p := Char.isAlpha) (l := cs)).length_le
    simp only [List.length_cons]
    omega

end NavPolicy.Json
