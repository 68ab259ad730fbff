/-!
# JSON values

The values that a JSON text denotes, close to how they are written: numbers keep their written form,
objects keep every field in its place, and a string may be one that no Unicode text corresponds to.
-/

namespace NavPolicy.Json

/-- The content of a string.  It is `none` when an escape names half of a surrogate pair without the
other half: the string is then well written but stands for no text. -/
abbrev Text := Option String

/-- A number as it is written. -/
inductive Numeral where
  /-- Digits, with or without a sign. -/
  | integer (negative : Bool) (magnitude : Nat)
  /-- A number with a fraction or an exponent, as written. -/
  | decimal (written : String)
  deriving DecidableEq, Repr

/-- A JSON value. -/
inductive Value where
  | null
  | bool (b : Bool)
  | number (n : Numeral)
  | string (t : Text)
  | array (items : List Value)
  | object (fields : List (Text × Value))
  deriving Repr

/-- The value of a text. -/
def Value.ofString (s : String) : Value := .string (some s)

/-- The value of a natural number. -/
def Value.ofNat (n : Nat) : Value := .number (.integer false n)

/-- The value of an integer. -/
def Value.ofInt (n : Int) : Value := .number (.integer (n < 0) n.natAbs)

/-- The object with these fields. -/
def Value.record (fields : List (String × Value)) : Value :=
  .object (fields.map fun (name, v) => (some name, v))

end NavPolicy.Json
