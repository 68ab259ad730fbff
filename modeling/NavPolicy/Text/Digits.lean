/-!
# Digits and the numbers they spell

Reading and writing of natural numbers in a given base.  A digit is one of `0`–`9` and, for bases
above ten, a letter of either case.
-/

namespace NavPolicy.Text

/-- The value of a digit, letters of either case standing for ten and more. -/
def digitValue? (c : Char) : Option Nat :=
  if '0' ≤ c ∧ c ≤ '9' then some (c.toNat - 0x30)
  else if 'a' ≤ c ∧ c ≤ 'z' then some (c.toNat - 0x61 + 10)
  else if 'A' ≤ c ∧ c ≤ 'Z' then some (c.toNat - 0x41 + 10)
  else none

/-- The value of a digit of the base. -/
def digitInBase? (base : Nat) (c : Char) : Option Nat :=
  (digitValue? c).filter (· < base)

/-- The number that digits of the base spell when they follow the digits of `high`. -/
def accumulate? (base : Nat) (high : Nat) : List Char → Option Nat
  | [] => some high
  | c :: cs =>
    match digitInBase? base c with
    | some d => accumulate? base (high * base + d) cs
    | none => none

/-- The number that a text spells in the base; a text without digits spells none. -/
def readBase? (base : Nat) (cs : List Char) : Option Nat :=
  if cs.isEmpty then none else accumulate? base 0 cs

/-- The number that a text of decimal digits spells. -/
def readNat? (cs : List Char) : Option Nat := readBase? 10 cs

/-- The hexadecimal digit of a number below sixteen, the letters starting from the one for ten. -/
def hexDigit (ten : Char) (n : Nat) : Char :=
  Char.ofNat (if n < 10 then 0x30 + n else ten.toNat + (n - 10))

/-- The lower-case hexadecimal digit of a number below sixteen. -/
def lowerHexDigit (n : Nat) : Char := hexDigit 'a' n

/-- The upper-case hexadecimal digit of a number below sixteen. -/
def upperHexDigit (n : Nat) : Char := hexDigit 'A' n

/-- The decimal digits of a number. -/
def natDigits (n : Nat) : List Char := Nat.toDigits 10 n

/-- The decimal digits of a number, with zeros in front up to a width. -/
def paddedDigits (width n : Nat) : List Char :=
  let ds := natDigits n
  List.replicate (width - ds.length) '0' ++ ds

end NavPolicy.Text
