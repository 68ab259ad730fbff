/-!
# Double-precision numbers

The numbers of the IEEE format binary64, as exact values, and the one that a decimal fraction rounds
to.  The rounding is done in integer arithmetic: the fraction is divided so that the quotient has as
many bits as the format keeps, and the remainder decides, a tie going to the even neighbour.
-/

namespace NavPolicy

/-- A binary64 number.  A finite one is `mantissa * 2 ^ exponent` with an odd mantissa, and zero has no
sign, so that equal numbers are the same. -/
inductive Binary64 where
  | finite (negative : Bool) (mantissa : Nat) (exponent : Int)
  | infinite (negative : Bool)
  | nan
  deriving DecidableEq, Repr

namespace Binary64

/-- Zero. -/
def zero : Binary64 := .finite false 0 0

/-- The quotient rounded to the nearest integer, a tie to the even one. -/
def roundDiv (num den : Nat) : Nat :=
  let q := num / den
  let r := num % den
  if 2 * r < den then q
  else if den < 2 * r then q + 1
  else if q % 2 = 0 then q else q + 1

/-- Halves a number while it is even, at most `fuel` times; the exponent counts along. -/
def strip : Nat → Nat → Int → Nat × Int
  | 0, m, e => (m, e)
  | fuel + 1, m, e => if m % 2 = 0 then strip fuel (m / 2) (e + 1) else (m, e)

/-- The number nearest to `num / den`, both positive. -/
def ofFraction (negative : Bool) (num den : Nat) : Binary64 :=
  let scaled (e : Int) : Nat :=
    if 0 ≤ e then num / (den <<< e.toNat) else num <<< (-e).toNat / den
  -- the exponent that leaves 53 bits before the point, but none below that of the least number
  let guess : Int := (Nat.log2 num : Int) - Nat.log2 den - 53
  let exact := if scaled guess < 1 <<< 53 then guess else guess + 1
  let exponent := max exact (-1074)
  let rounded :=
    if 0 ≤ exponent then roundDiv num (den <<< exponent.toNat)
    else roundDiv (num <<< (-exponent).toNat) den
  if rounded = 0 then zero
  else
    let (m, e) := strip 53 rounded exponent
    if 1024 < (Nat.log2 m : Int) + 1 + e then .infinite negative else .finite negative m e

/-- The number nearest to `digits * 10 ^ exponent`.  A fraction that is far too large or too small is
not worked out. -/
def ofDecimal (negative : Bool) (digits : Nat) (exponent : Int) : Binary64 :=
  let magnitude : Int := (Nat.toDigits 10 digits).length + exponent
  if digits = 0 then zero
  else if 310 < magnitude then .infinite negative
  else if magnitude < -330 then zero
  else if 0 ≤ exponent then ofFraction negative (digits * Nat.pow 10 exponent.toNat) 1
  else ofFraction negative digits (Nat.pow 10 (-exponent).toNat)

/-- Whether the number is neither infinite nor no number. -/
def isFinite : Binary64 → Bool
  | finite _ _ _ => true
  | _ => false

end Binary64

end NavPolicy
