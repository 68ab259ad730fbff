import NavPolicy.Number.Binary64
import NavPolicy.Text.Digits

/-!
# What plain scalars mean

A plain scalar without tag may mean null, a truth value or a number, by its text alone.  Integers may be
hexadecimal, octal or binary after `0x`, `0o`, `0b`; a decimal integer with a leading zero is no number.
Integers have at most sixty-four bits; ones that would fit in 128 bits are refused, and longer ones are
read as fractions.
-/

namespace NavPolicy.Yaml.Plain

/-- Whether a text means null; the empty text does as well where a value may be missing. -/
def isNull (cs : List Char) : Bool :=
  cs = "null".toList || cs = "Null".toList || cs = "NULL".toList || cs = "~".toList

/-- The truth value that a text means. -/
def bool? (cs : List Char) : Option Bool :=
  if cs = "true".toList || cs = "True".toList || cs = "TRUE".toList then some true
  else if cs = "false".toList || cs = "False".toList || cs = "FALSE".toList then some false
  else none

/-- What follows a given start of a text. -/
def after? (start cs : List Char) : Option (List Char) :=
  if start.isPrefixOf cs then some (cs.drop start.length) else none

/-- Whether a text is a sign. -/
def startsWithSign (cs : List Char) : Bool := cs.head? = some '+' || cs.head? = some '-'

/-- The text without a plus sign at its start. -/
def withoutPlus (cs : List Char) : List Char := (after? ['+'] cs).getD cs

/-- Whether a text, but for a sign, is a run of several digits that starts with a zero. -/
def hasLeadingZero (cs : List Char) : Bool :=
  let digits := if startsWithSign cs then cs.drop 1 else cs
  digits.length > 1 && digits.head? = some '0' && digits.all Char.isDigit

/-- The first of these readings of a number that stays within a bound. -/
def within? (bound : Nat) (readings : List (Option Nat)) : Option Nat :=
  (readings.filterMap id).find? (· ≤ bound)

/-- The readings of a text with the prefixes of the bases other than ten. -/
def prefixed (start cs : List Char) : List (Option Nat) :=
  [("0x", 16), ("0o", 8), ("0b", 2)].map fun (mark, base) =>
    (after? (start ++ mark.toList) cs).bind (Text.readBase? base)

/-- The unsigned integer up to a bound that a text means. -/
def unsigned? (bound : Nat) (cs : List Char) : Option Nat :=
  let digits := withoutPlus cs
  within? bound <|
    prefixed [] digits ++ [if hasLeadingZero cs then none else Text.readNat? digits]

/-- The absolute value, up to a bound, of the negative integer that a text means. -/
def negative? (bound : Nat) (cs : List Char) : Option Nat :=
  within? bound <|
    prefixed ['-'] cs ++
      [if hasLeadingZero cs then none else (after? ['-'] cs).bind Text.readNat?]

/-- What a text means as an integer. -/
inductive IntegerReading where
  | none
  | tooLarge
  | integer (n : Int)
  deriving DecidableEq, Repr

/-- The integer that a text means. -/
def integer (cs : List Char) : IntegerReading :=
  match unsigned? (1 <<< 64 - 1) cs, negative? (1 <<< 63) cs with
  | some n, _ => .integer n
  | none, some n => .integer (-n)
  | none, none =>
    if (unsigned? (1 <<< 128 - 1) cs).isSome || (negative? (1 <<< 127) cs).isSome then .tooLarge
    else .none

/-- Reads an exponent with its letter; it may be absent. -/
def exponent? : List Char → Option Int
  | [] => some 0
  | e :: cs =>
    if e = 'e' || e = 'E' then
      match cs with
      | '-' :: ds => (Text.readNat? ds).map fun n => -(n : Int)
      | '+' :: ds => (Text.readNat? ds).map fun n => (n : Int)
      | ds => (Text.readNat? ds).map fun n => (n : Int)
    else none

/-- The number nearest to a decimal fraction without a plus sign. -/
def fraction? (cs : List Char) : Option Binary64 :=
  let negative := cs.head? = some '-'
  let cs := if startsWithSign cs then cs.drop 1 else cs
  let whole := cs.takeWhile Char.isDigit
  let rest := cs.drop whole.length
  let places :=
    if rest.head? = some '.' then (rest.drop 1).takeWhile Char.isDigit else []
  let rest := if rest.head? = some '.' then rest.drop (1 + places.length) else rest
  match Text.readNat? (whole ++ places), exponent? rest with
  | some digits, some e => some (.ofDecimal negative digits (e - places.length))
  | _, _ => none

/-- The floating-point number that a text means. -/
def float? (cs : List Char) : Option Binary64 :=
  let body := withoutPlus cs
  if cs.head? = some '+' && startsWithSign body then none
  else if body = ".inf".toList || body = ".Inf".toList || body = ".INF".toList then
    some (.infinite false)
  else if cs = "-.inf".toList || cs = "-.Inf".toList || cs = "-.INF".toList then
    some (.infinite true)
  else if cs = ".nan".toList || cs = ".NaN".toList || cs = ".NAN".toList then some .nan
  else (fraction? body).filter Binary64.isFinite

end NavPolicy.Yaml.Plain
