import NavPolicy.Json.Persisted
import NavPolicy.Text.Blank
import NavPolicy.Text.Digits
import NavPolicy.Time.Instant

/-!
# RFC 3339 times

An instant is written in UTC with a `Z` and as many fraction digits, none, three, six or nine, as it
takes to lose nothing.  The reading is more liberal: it takes any offset, blanks around numbers and
separators, numbers without leading zeros, years with a sign, and a blank in place of the `T`.

## Reading

Each part is a function from the rest of the text to what it reads and what follows it.  The parts
are checked against their ranges, put together in local time, and the offset is taken off.
-/

namespace NavPolicy.Time

open NavPolicy.Text (trimStart isBlank)

/-! ## Writing -/

/-- The digits of a year: four where they suffice, with a sign outside of 0 to 9999. -/
def yearDigits (year : Int) : List Char :=
  if 0 ≤ year ∧ year ≤ 9999 then Text.paddedDigits 4 year.natAbs
  else (if year < 0 then '-' else '+') :: Text.paddedDigits 4 year.natAbs

/-- The fraction of a second, with the point, in the fewest of 0, 3, 6 or 9 digits. -/
def fractionDigits (nanosecond : Nat) : List Char :=
  if nanosecond = 0 then []
  else if nanosecond % 1000000 = 0 then '.' :: Text.paddedDigits 3 (nanosecond / 1000000)
  else if nanosecond % 1000 = 0 then '.' :: Text.paddedDigits 6 (nanosecond / 1000)
  else '.' :: Text.paddedDigits 9 nanosecond

/-- The characters of the written form of an instant. -/
def Instant.chars (t : Instant) : List Char :=
  let date := t.date
  let leap := t.nanosecond / 1000000000
  yearDigits date.year ++ '-' :: Text.paddedDigits 2 date.month ++
    '-' :: Text.paddedDigits 2 date.day ++
    'T' :: Text.paddedDigits 2 (t.secondOfDay / 3600) ++
    ':' :: Text.paddedDigits 2 (t.secondOfDay / 60 % 60) ++
    ':' :: Text.paddedDigits 2 (t.secondOfDay % 60 + leap) ++
    fractionDigits (t.nanosecond % 1000000000) ++ ['Z']

/-- The written form of an instant. -/
def Instant.write (t : Instant) : String := String.ofList t.chars

/-! ## Reading -/

/-- Reads a number of at most `width` digits after blanks. -/
def readNumber? (width : Nat) (cs : List Char) : Option (Nat × List Char) :=
  let cs := trimStart cs
  let digits := (cs.take width).takeWhile Char.isDigit
  (Text.readNat? digits).map fun n => (n, cs.drop digits.length)

/-- Reads a year after blanks: four digits at most, or a sign and any number of digits. -/
def readYear? (cs : List Char) : Option (Int × List Char) :=
  match trimStart cs with
  | '-' :: ds => (readNumber? ds.length ds).bind fun (n, rest) =>
    if ds.head?.any Char.isDigit then some (-(n : Int), rest) else none
  | '+' :: ds => (readNumber? ds.length ds).bind fun (n, rest) =>
    if ds.head?.any Char.isDigit then some (n, rest) else none
  | ds => (readNumber? 4 ds).map fun (n, rest) => (n, rest)

/-- Reads a separator after blanks. -/
def readMark? (c : Char) (cs : List Char) : Option (List Char) :=
  match trimStart cs with
  | d :: rest => if c = d then some rest else none
  | [] => none

/-- Reads the fraction of a second, if there is one: nanoseconds, digits after the ninth skipped. -/
def readFraction? : List Char → Option (Nat × List Char)
  | '.' :: cs =>
    let digits := cs.takeWhile Char.isDigit
    let kept := digits.take 9
    (Text.readNat? kept).map fun n => (n * Nat.pow 10 (9 - kept.length), cs.drop digits.length)
  | cs => some (0, cs)

/-- Reads two digits that stand at the very start. -/
def readTwoDigits? : List Char → Option (Nat × List Char)
  | a :: b :: rest => (Text.readNat? [a, b]).map (·, rest)
  | _ => none

/-- Reads the distance of an offset: hours and minutes of two digits each. -/
def readDistance? (cs : List Char) : Option (Nat × List Char) :=
  (readTwoDigits? cs).bind fun (hours, rest) =>
    (readTwoDigits? (rest.dropWhile fun c => c = ':' || isBlank c)).bind fun (minutes, rest) =>
      if minutes < 60 then some (hours * 3600 + minutes * 60, rest) else none

/-- Reads an offset from UTC in seconds. -/
def readOffset? (cs : List Char) : Option (Int × List Char) :=
  match cs with
  | a :: b :: c :: rest =>
    if [a, b, c].map Char.toUpper = ['U', 'T', 'C'] then some (0, rest) else signed cs
  | _ => signed cs
where
  /-- Reads a `Z`, or a sign and a distance. -/
  signed : List Char → Option (Int × List Char)
    | [] => none
    | c :: rest =>
      if c = 'Z' || c = 'z' then some (0, rest)
      else if c = '+' then (readDistance? rest).map fun (n, rest) => ((n : Int), rest)
      else if c = '-' || c = '\u2212' then
        (readDistance? rest).map fun (n, rest) => (-(n : Int), rest)
      else none

/-- The years that dates may have. -/
def isYearInRange (year : Int) : Bool := -262143 ≤ year && year ≤ 262142

/-- The parts of a written time, as read. -/
structure Reading where
  date : Date
  hour : Nat
  minute : Nat
  second : Nat
  nanosecond : Nat
  offset : Int
  deriving DecidableEq, Repr

namespace Reading

/-- Whether every part is in its range; the sixtieth second is a leap second. -/
def isValid (r : Reading) : Bool :=
  isYearInRange r.date.year && decide r.date.IsValid && r.hour < 24 && r.minute < 60 &&
    r.second ≤ 60 && r.offset.natAbs < 86400

/-- The instant that the parts give, if its date in UTC is one that dates may have. -/
def instant? (r : Reading) : Option Instant :=
  let leap := r.second / 60
  let local_ : Int := r.date.dayNumber * Instant.secondsPerDay +
    (r.hour * 3600 + r.minute * 60 + (r.second - leap) : Nat)
  let t : Instant := ⟨local_ - r.offset, r.nanosecond + leap * 1000000000⟩
  if isYearInRange t.date.year then some t else none

end Reading

/-- Reads the parts of a time, up to the end of the text. -/
def readParts? (cs : List Char) : Option Reading := do
  let (year, cs) ← readYear? cs
  let cs ← readMark? '-' cs
  let (month, cs) ← readNumber? 2 cs
  let cs ← readMark? '-' cs
  let (day, cs) ← readNumber? 2 cs
  let cs ←
    match cs with
    | c :: rest => if c = 't' || c = 'T' || c = ' ' then some rest else none
    | [] => none
  let (hour, cs) ← readNumber? 2 cs
  let cs ← readMark? ':' cs
  let (minute, cs) ← readNumber? 2 cs
  let cs ← readMark? ':' cs
  let (second, cs) ← readNumber? 2 cs
  let (nanosecond, cs) ← readFraction? cs
  let (offset, cs) ← readOffset? (trimStart cs)
  if (trimStart cs).isEmpty then some ⟨⟨year, month, day⟩, hour, minute, second, nanosecond, offset⟩
  else none

/-- The instant that a text states. -/
def Instant.read? (text : String) : Option Instant :=
  (readParts? text.toList).bind fun r => if r.isValid then r.instant? else none

instance : Json.Persisted Instant where
  toJson t := .ofString t.write
  ofJson
    | .string (some s) =>
      match Instant.read? s with
      | some t => .ok t
      | none => .error (.unexpected "an RFC 3339 time")
    | _ => .error (.unexpected "an RFC 3339 time")

end NavPolicy.Time
