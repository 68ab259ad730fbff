import NavPolicy.Text.Digits
import NavPolicy.Text.Utf8

/-!
# Percent encoding

A text is carried inside a URL as its UTF-8 bytes: a byte that stands for a letter, a digit or one of
`-`, `.`, `_`, `~` is written as that character, and every other byte as `%` and two upper-case
hexadecimal digits.
-/

namespace NavPolicy.Text

/-- Whether a byte is written as the character it stands for. -/
def isUnreserved (b : UInt8) : Bool :=
  let c := Char.ofNat b.toNat
  c.isAlphanum || c = '-' || c = '.' || c = '_' || c = '~'

/-- The written form of one byte. -/
def percentEncodeByte (b : UInt8) : List Char :=
  if isUnreserved b then [Char.ofNat b.toNat]
  else ['%', upperHexDigit (b.toNat / 16), upperHexDigit (b.toNat % 16)]

/-- The written form of a list of bytes. -/
def percentEncodeBytes (bytes : List UInt8) : List Char := bytes.flatMap percentEncodeByte

/-- The text with every byte of its UTF-8 form percent-encoded where it has to be. -/
def percentEncode (text : String) : String :=
  String.ofList (percentEncodeBytes (utf8Bytes text.toList))

end NavPolicy.Text
