import NavPolicy.Text.Digits
import NavPolicy.Text.Utf8
import NavPolicy.Yaml.Cursor
import NavPolicy.Yaml.Error
import NavPolicy.Yaml.Token

/-!
# Anchors, tags and directives

The readers of the tokens that say something about nodes or documents instead of being content: names
of anchors and aliases, tags in their three forms, and the two directives.

## The bytes of tags

A tag is a string of bytes.  A character stands for its UTF-8 form and an escape for any byte; escapes
have to come in the lengths of UTF-8, but they need not make characters that there are.  What follows a
zero byte in a tag, or in what a handle stands for, does not count.
-/

namespace NavPolicy.Yaml

/-! ## Anchors and aliases -/

/-- Whether a name may end before a text. -/
def endsName (cs : List Char) : Bool :=
  endsWord cs || cs.head?.any fun c =>
    c = '?' || c = ':' || c = ',' || c = ']' || c = '\x7d' || c = '%' || c = '@' || c = '`'

/-- Reads the name of an anchor or an alias from after its indicator. -/
def readName (c : Cursor) : Except Error (String × Cursor) :=
  let name := c.rest.takeWhile isNameChar
  let c := c.skip name.length
  if !name.isEmpty && endsName c.rest then .ok (String.ofList name, c) else .error .badAnchor

/-! ## Tags -/

/-- The characters of tags, besides escapes; some only in tags between angle brackets. -/
def isTagChar (verbatim : Bool) (c : Char) : Bool :=
  isNameChar c || ";/?:@&=+$.!~*'()".toList.contains c ||
    (verbatim && (c = ',' || c = '[' || c = ']'))

/-- Reads a percent sign and two hexadecimal digits. -/
def readEscapedByte? : List Char → Option (Nat × List Char)
  | '%' :: a :: b :: cs => (Text.readBase? 16 [a, b]).map (·, cs)
  | _ => none

/-- How many bytes go on with the character that a byte begins. -/
def bytesToFollow? (b : Nat) : Option Nat :=
  if b < 128 then some 0
  else if b / 32 = 6 then some 1
  else if b / 16 = 14 then some 2
  else if b / 8 = 30 then some 3
  else none

/-- Reads `n` escaped bytes that go on with a character. -/
def readFollowing? : Nat → List Char → Option (List UInt8 × List Char)
  | 0, cs => some ([], cs)
  | n + 1, cs =>
    match readEscapedByte? cs with
    | some (b, cs) =>
      if b / 64 = 2 then (readFollowing? n cs).map fun (bs, cs) => (.ofNat b :: bs, cs) else none
    | none => none

/-- Reads the escaped bytes of one character. -/
def readEscapedBytes? (cs : List Char) : Option (List UInt8 × List Char) :=
  match readEscapedByte? cs with
  | none => none
  | some (b, cs) =>
    match bytesToFollow? b with
    | none => none
    | some n => (readFollowing? n cs).map fun (bs, cs) => (.ofNat b :: bs, cs)

/-- Reads the bytes of a tag.  `fuel` bounds the number of characters. -/
def readTagBytes (verbatim : Bool) : Nat → List Char → Except Error (List UInt8 × List Char)
  | 0, cs => .ok ([], cs)
  | _ + 1, [] => .ok ([], [])
  | fuel + 1, c :: cs =>
    if isTagChar verbatim c then
      match readTagBytes verbatim fuel cs with
      | .ok (bs, rest) => .ok (String.utf8EncodeChar c ++ bs, rest)
      | .error e => .error e
    else if c = '%' then
      match readEscapedBytes? (c :: cs) with
      | none => .error .badTag
      | some (escaped, cs) =>
        match readTagBytes verbatim fuel cs with
        | .ok (bs, rest) => .ok (escaped ++ bs, rest)
        | .error e => .error e
    else .ok ([], c :: cs)

/-- Reads the bytes of a tag at a place. -/
def readTagText (verbatim : Bool) (c : Cursor) : Except Error (List UInt8 × Cursor) :=
  match readTagBytes verbatim c.rest.length c.rest with
  | .ok (bs, rest) => .ok (bs, c.skip (c.rest.length - rest.length))
  | .error e => .error e

/-- The bytes that count: those before the first zero byte. -/
def untilZero (bs : List UInt8) : List UInt8 := bs.takeWhile (· ≠ 0)

/-- Reads what may be the handle of a tag: an exclamation mark, a name, and an exclamation mark if one
follows. -/
def readHandle (c : Cursor) : Except Error (List Char × Cursor) :=
  match c.rest with
  | '!' :: cs =>
    let name := cs.takeWhile isNameChar
    let closing := if (cs.drop name.length).head? = some '!' then ['!'] else []
    let handle := '!' :: name ++ closing
    .ok (handle, c.skip handle.length)
  | _ => .error .badTag

/-- Whether a handle is closed by an exclamation mark of its own. -/
def isClosedHandle (handle : List Char) : Bool :=
  handle.length > 1 && handle.getLast? = some '!'

/-- Reads a tag: between angle brackets, after a closed handle, or after a single exclamation mark. -/
def readTag (inFlow : Bool) (c : Cursor) : Except Error (Token × Cursor) := do
  let (handle, suffix, c) ←
    if c.rest.take 2 = ['!', '<'] then do
      let (suffix, c) ← readTagText true (c.skip 2)
      if !suffix.isEmpty && c.rest.head? = some '>' then pure ([], untilZero suffix, c.skip 1)
      else throw .badTag
    else do
      let (handle, c) ← readHandle c
      let (text, c) ← readTagText false c
      if isClosedHandle handle then
        if text.isEmpty then throw .badTag else pure (handle, untilZero text, c)
      else
        let suffix := Text.utf8Bytes (handle.drop 1) ++ untilZero text
        pure (if suffix.isEmpty then ([], Text.utf8Bytes ['!'], c) else (['!'], suffix, c))
  if endsWord c.rest || (inFlow && c.rest.head? = some ',') then
    return (.tag (String.ofList handle) suffix, c)
  else throw .badTag

/-! ## Directives -/

/-- Reads a number of a version, of at most nine digits. -/
def readVersionNumber (c : Cursor) : Except Error (Nat × Cursor) :=
  let digits := c.rest.takeWhile Char.isDigit
  match Text.readNat? digits with
  | some n => if digits.length ≤ 9 then .ok (n, c.skip digits.length) else .error .badDirective
  | none => .error .badDirective

/-- Reads the version that a directive names. -/
def readVersion (c : Cursor) : Except Error (Token × Cursor) := do
  let (major, c) ← readVersionNumber (c.skipWhile isGap)
  if c.rest.head? ≠ some '.' then throw .badDirective
  let (minor, c) ← readVersionNumber (c.skip 1)
  return (.version major minor, c)

/-- Reads the handle and the start of tags that a directive ties together. -/
def readTagHandle (c : Cursor) : Except Error (Token × Cursor) := do
  let (handle, c) ← readHandle (c.skipWhile isGap)
  if handle ≠ ['!'] && !isClosedHandle handle then throw .badDirective
  if !c.rest.head?.any isGap then throw .badDirective
  let (start, c) ← readTagText true (c.skipWhile isGap)
  if start.isEmpty || !endsWord c.rest then throw .badDirective
  return (.tagHandle (String.ofList handle) (untilZero start), c)

/-- Reads a directive from after its indicator, with the rest of its line. -/
def readDirective (c : Cursor) : Except Error (Token × Cursor) := do
  let name := c.rest.takeWhile isNameChar
  let c := c.skip name.length
  if !endsWord c.rest then throw .badDirective
  let (token, c) ←
    if name = "YAML".toList then readVersion c
    else if name = "TAG".toList then readTagHandle c
    else throw .badDirective
  match c.endLine? with
  | some c => return (token, c)
  | none => throw .badDirective

end NavPolicy.Yaml
