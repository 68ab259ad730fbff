import Mathlib.Data.List.TakeWhile
import NavPolicy.Time.Rfc3339
import NavPolicy.Proofs.Json.Token
import NavPolicy.Proofs.Text.Blank
import NavPolicy.Proofs.Time.DayCount

/-!
# Times as they are written

A time is written as a date, a time of day with a fraction of a second, and its distance from UTC
(`Timestamp`).  The instant that it states is found by counting the days up to its date.  Each part is read
from the characters that stand for it and leaves what follows (`readParts?_chars`), and the parts that are
read state the same instant as the time that was written (`Timestamp.read?_text`).
-/

namespace NavPolicy.Time

open NavPolicy.Text (trimStart isBlank isBlank_of_isDigit paddedDigits readNat?_paddedDigits
  isDigit_of_mem_paddedDigits length_paddedDigits)

/-! ## Parts -/

/-- Padded digits start with a digit. -/
theorem exists_paddedDigits_eq (width n : Nat) :
    ∃ d ds, paddedDigits width n = d :: ds ∧ d.isDigit = true := by
  have hne : paddedDigits width n ≠ [] :=
    List.append_ne_nil_of_right_ne_nil _ (Text.natDigits_ne_nil n)
  obtain ⟨d, ds, hds⟩ := List.exists_cons_of_ne_nil hne
  exact ⟨d, ds, hds, isDigit_of_mem_paddedDigits (hds ▸ List.mem_cons_self)⟩

/-- Nothing is cut from digits. -/
theorem trimStart_paddedDigits (width n : Nat) (rest : List Char) :
    trimStart (paddedDigits width n ++ rest) = paddedDigits width n ++ rest := by
  obtain ⟨d, ds, hds, hd⟩ := exists_paddedDigits_eq width n
  rw [hds, trimStart]
  exact List.dropWhile_cons_of_neg (by simp [isBlank_of_isDigit hd])

/-- A number is read from its padded digits. -/
theorem readNumber?_paddedDigits {width n : Nat} (hwidth : 0 < width) (hn : n < 10 ^ width)
    (rest : List Char) : readNumber? width (paddedDigits width n ++ rest) = some (n, rest) := by
  have hlength := length_paddedDigits hwidth hn
  have htake : (paddedDigits width n ++ rest).take width = paddedDigits width n :=
    List.take_left' hlength
  have hdigits : (paddedDigits width n).takeWhile Char.isDigit = paddedDigits width n :=
    List.takeWhile_eq_self_iff.2 fun c hc => isDigit_of_mem_paddedDigits hc
  have hdrop : (paddedDigits width n ++ rest).drop (paddedDigits width n).length = rest :=
    List.drop_left
  simp only [readNumber?, trimStart_paddedDigits, htake, hdigits, hdrop,
    readNat?_paddedDigits, Option.map_some]

/-- A year of four digits is read from them. -/
theorem readYear?_yearDigits {year : Int} (h : 0 ≤ year ∧ year ≤ 9999) (rest : List Char) :
    readYear? (yearDigits year ++ rest) = some (year, rest) := by
  have hn : year.natAbs < 10 ^ 4 := by omega
  have hread := readNumber?_paddedDigits (by decide) hn rest
  rw [yearDigits, if_pos h, readYear?, trimStart_paddedDigits]
  obtain ⟨d, ds, hds, hd⟩ := exists_paddedDigits_eq 4 year.natAbs
  rw [hds, List.cons_append] at hread ⊢
  split
  · rename_i heq
    obtain rfl := (List.cons.inj heq).1
    exact absurd hd (by decide)
  · rename_i heq
    obtain rfl := (List.cons.inj heq).1
    exact absurd hd (by decide)
  · rw [hread, Option.map_some]
    exact congrArg (fun n => some (n, rest)) (Int.natAbs_of_nonneg h.1)

/-- A fraction is read from its digits, whatever their number. -/
theorem readFraction?_paddedDigits {width n : Nat} (hwidth : 0 < width ∧ width ≤ 9)
    (hn : n < 10 ^ width) {rest : List Char} (hrest : ∀ c ∈ rest.head?, c.isDigit = false) :
    readFraction? ('.' :: paddedDigits width n ++ rest) = some (n * 10 ^ (9 - width), rest) := by
  have hdigits : ∀ c ∈ paddedDigits width n, c.isDigit = true := fun c hc =>
    isDigit_of_mem_paddedDigits hc
  obtain ⟨htake, -⟩ := Json.takeWhile_append_of_head hdigits hrest
  have hlength := length_paddedDigits hwidth.1 hn
  have hkept : (paddedDigits width n).take 9 = paddedDigits width n :=
    List.take_of_length_le (hlength.trans_le hwidth.2)
  have hdrop : (paddedDigits width n ++ rest).drop (paddedDigits width n).length = rest :=
    List.drop_left
  simp only [List.cons_append, readFraction?, htake, hkept, hdrop, readNat?_paddedDigits,
    Option.map_some]
  rw [hlength]
  rfl

/-- A separator is read where it stands. -/
theorem readMark?_self {c : Char} (hc : isBlank c = false) (rest : List Char) :
    readMark? c (c :: rest) = some rest := by
  rw [readMark?, trimStart, List.dropWhile_cons_of_neg (by simp [hc])]
  exact if_pos rfl

/-- A reading goes on with what its first part gives. -/
theorem bind_eq_some_of {α β : Type} {x : Option α} {f : α → Option β} {a : α} {b : β}
    (hx : x = some a) (hf : f a = some b) : (x >>= f) = some b :=
  Option.bind_eq_some_iff.2 ⟨a, hx, hf⟩

/-- Two digits are read at the very start. -/
theorem readTwoDigits?_paddedDigits {n : Nat} (hn : n < 10 ^ 2) (rest : List Char) :
    readTwoDigits? (paddedDigits 2 n ++ rest) = some (n, rest) := by
  obtain ⟨a, b, hdigits⟩ := List.length_eq_two.1 (length_paddedDigits (by decide) hn)
  have hread := readNat?_paddedDigits 2 n
  rw [hdigits] at hread ⊢
  simp only [List.cons_append, List.nil_append, readTwoDigits?, hread, Option.map_some]

/-- A distance is read from its hours and minutes. -/
theorem readDistance?_paddedDigits {hours minutes : Nat} (hhours : hours < 24) (hminutes : minutes < 60) :
    readDistance? (paddedDigits 2 hours ++ ':' :: paddedDigits 2 minutes) =
      some (hours * 3600 + minutes * 60, []) := by
  obtain ⟨d, ds, hds, hd⟩ := exists_paddedDigits_eq 2 minutes
  have hcolon : d ≠ ':' := by
    rintro rfl
    exact absurd hd (by decide)
  have hskip : (':' :: paddedDigits 2 minutes).dropWhile (fun c => c = ':' || isBlank c) =
      paddedDigits 2 minutes ++ [] := by
    rw [List.dropWhile_cons_of_pos (by decide), List.append_nil, hds]
    exact List.dropWhile_cons_of_neg (by simp [hcolon, isBlank_of_isDigit hd])
  rw [readDistance?, readTwoDigits?_paddedDigits (by omega), Option.bind_some]
  dsimp only
  rw [hskip, readTwoDigits?_paddedDigits (by omega), Option.bind_some]
  exact if_pos hminutes

/-- An offset that starts with a sign is no abbreviation of UTC. -/
theorem readOffset?_of_sign {sign : Char} (h : sign.toUpper ≠ 'U') (cs : List Char) :
    readOffset? (sign :: cs) = readOffset?.signed (sign :: cs) := by
  rw [readOffset?.eq_def]
  split
  · rename_i heq
    obtain ⟨rfl, rfl⟩ := List.cons.inj heq
    exact if_neg fun hupper => h (List.cons.inj hupper).1
  · rfl

/-! ## Written times -/

/-- The distance of a time of day from UTC, as it is written. -/
inductive Zone where
  /-- The letter `Z`. -/
  | utc
  /-- Hours and minutes, east or west. -/
  | offset (isEast : Bool) (hours minutes : Nat)
  deriving DecidableEq, Repr

namespace Zone

/-- Whether the hours and the minutes are ones of a clock. -/
def IsValid : Zone → Prop
  | utc => True
  | offset _ hours minutes => hours < 24 ∧ minutes < 60

instance : (z : Zone) → Decidable z.IsValid
  | utc => .isTrue trivial
  | offset _ hours minutes => inferInstanceAs (Decidable (hours < 24 ∧ minutes < 60))

/-- The characters of the distance. -/
def chars : Zone → List Char
  | utc => ['Z']
  | offset isEast hours minutes =>
    (if isEast then '+' else '-') :: (paddedDigits 2 hours ++ ':' :: paddedDigits 2 minutes)

/-- The distance in seconds, positive to the east. -/
def seconds : Zone → Int
  | utc => 0
  | offset true hours minutes => hours * 3600 + minutes * 60
  | offset false hours minutes => -(hours * 3600 + minutes * 60)

/-- A distance starts with a letter or a sign. -/
theorem exists_chars_eq (z : Zone) : ∃ c rest, z.chars = c :: rest ∧ c ∈ ['Z', '+', '-'] := by
  cases z with
  | utc => exact ⟨'Z', [], rfl, by simp⟩
  | offset isEast hours minutes => exact ⟨_, _, rfl, by cases isEast <;> simp⟩

/-- A distance is less than a day. -/
theorem IsValid.natAbs_seconds_lt {z : Zone} (h : z.IsValid) : z.seconds.natAbs < 86400 := by
  cases z with
  | utc => decide
  | offset isEast hours minutes =>
    obtain ⟨hhours, hminutes⟩ := h
    cases isEast <;> simp only [seconds] <;> omega

/-- A distance is read from its characters. -/
theorem IsValid.readOffset?_chars {z : Zone} (h : z.IsValid) :
    readOffset? z.chars = some (z.seconds, []) := by
  cases z with
  | utc => rfl
  | offset isEast hours minutes =>
    have hdistance := readDistance?_paddedDigits h.1 h.2
    cases isEast with
    | true =>
      show readOffset? ('+' :: _) = _
      rw [readOffset?_of_sign (by decide)]
      show (readDistance? _).map _ = _
      rw [hdistance, Option.map_some]
      rfl
    | false =>
      show readOffset? ('-' :: _) = _
      rw [readOffset?_of_sign (by decide)]
      show (readDistance? _).map _ = _
      rw [hdistance, Option.map_some]
      rfl

end Zone

/-- A time as it is written: a date of a year of four digits, a letter or a blank, a time of day with any
number of fraction digits up to nine, and its distance from UTC. -/
structure Timestamp where
  date : Date
  mark : Char
  hour : Nat
  minute : Nat
  second : Nat
  places : Nat
  fraction : Nat
  zone : Zone
  year_mem : 0 ≤ date.year ∧ date.year ≤ 9999
  isValid_date : date.IsValid
  mark_mem : mark ∈ ['T', 't', ' ']
  hour_lt : hour < 24
  minute_lt : minute < 60
  second_lt : second < 60
  places_le : places ≤ 9
  fraction_lt : fraction < 10 ^ places
  isValid_zone : zone.IsValid

namespace Timestamp

variable (s : Timestamp)

/-- The fraction with its point, if it has digits. -/
def fractionChars : List Char := if s.places = 0 then [] else '.' :: paddedDigits s.places s.fraction

/-- The characters of the time. -/
def chars : List Char :=
  paddedDigits 4 s.date.year.toNat ++ '-' :: paddedDigits 2 s.date.month ++
    '-' :: paddedDigits 2 s.date.day ++
    s.mark :: paddedDigits 2 s.hour ++
    ':' :: paddedDigits 2 s.minute ++
    ':' :: paddedDigits 2 s.second ++
    s.fractionChars ++ s.zone.chars

/-- The text of the time. -/
def text : String := String.ofList s.chars

/-- The instant that the time states: the seconds of the days since 1970 and those of the day, less the
distance from UTC, and the fraction in billionths of a second. -/
def instant : Instant where
  second := ((s.date.dayCount : Int) - Date.dayCount ⟨1970, 1, 1⟩) * 86400 +
    (s.hour * 3600 + s.minute * 60 + s.second) - s.zone.seconds
  nanosecond := s.fraction * 10 ^ (9 - s.places)

/-- The parts that are read from the characters. -/
def reading : Reading where
  date := s.date
  hour := s.hour
  minute := s.minute
  second := s.second
  nanosecond := s.fraction * 10 ^ (9 - s.places)
  offset := s.zone.seconds

/-! ## Reading -/

/-- A fraction is read from its digits, none or up to nine, before the distance from UTC. -/
theorem readFraction?_fractionChars :
    readFraction? (s.fractionChars ++ s.zone.chars) =
      some (s.fraction * 10 ^ (9 - s.places), s.zone.chars) := by
  obtain ⟨c, rest, hzone, hc⟩ := s.zone.exists_chars_eq
  have hmark : c ≠ '.' ∧ c.isDigit = false := by
    revert hc
    simp only [List.mem_cons, List.not_mem_nil, or_false]
    rintro (rfl | rfl | rfl) <;> decide
  rw [fractionChars, hzone]
  by_cases hplaces : s.places = 0
  · have hfraction : s.fraction = 0 := by
      have hlt := s.fraction_lt
      rw [hplaces] at hlt
      omega
    rw [if_pos hplaces, hfraction, Nat.zero_mul, List.nil_append, readFraction?]
    exact fun ds h => hmark.1 (List.cons.inj h).1
  · rw [if_neg hplaces]
    refine readFraction?_paddedDigits ⟨Nat.pos_of_ne_zero hplaces, s.places_le⟩ s.fraction_lt ?_
    simp [hmark.2]

/-- Nothing is cut before the distance from UTC. -/
theorem trimStart_zone : trimStart s.zone.chars = s.zone.chars := by
  obtain ⟨c, rest, hzone, hc⟩ := s.zone.exists_chars_eq
  rw [hzone]
  refine Text.trimStart_eq_self fun d hd => ?_
  obtain rfl : c = d := Option.some.inj hd
  revert hc
  simp only [List.mem_cons, List.not_mem_nil, or_false]
  rintro (rfl | rfl | rfl) <;> decide

/-- The parts are read one after the other, each from where the one before it ended. -/
theorem readParts?_chars : readParts? s.chars = some s.reading := by
  obtain ⟨-, hmonth, -, hdays⟩ := s.isValid_date
  have hlast : s.date.day ≤ 31 := hdays.trans (by rw [daysInMonth]; split <;> split <;> omega)
  have hyear (rest : List Char) :
      readYear? (paddedDigits 4 s.date.year.toNat ++ rest) = some (s.date.year, rest) := by
    have habs : s.date.year.natAbs = s.date.year.toNat := by
      have hyear := s.year_mem
      omega
    have hread := readYear?_yearDigits s.year_mem rest
    rwa [yearDigits, if_pos s.year_mem, habs] at hread
  have hmark : (s.mark = 't' || s.mark = 'T' || s.mark = ' ') = true := by
    have hmem := s.mark_mem
    simp only [List.mem_cons, List.not_mem_nil, or_false] at hmem
    simp only [Bool.or_eq_true, decide_eq_true_eq]
    exact hmem.elim (fun h => .inl (.inr h)) fun h => h.elim (fun h => .inl (.inl h)) .inr
  have htwo {n : Nat} (hn : n < 10 ^ 2) (rest : List Char) :
      readNumber? 2 (paddedDigits 2 n ++ rest) = some (n, rest) :=
    readNumber?_paddedDigits (by decide) hn rest
  have hoffset : readOffset? (trimStart s.zone.chars) = some (s.zone.seconds, []) := by
    rw [s.trimStart_zone, s.isValid_zone.readOffset?_chars]
  simp only [chars, List.append_assoc, List.cons_append]
  -- the date, up to the mark
  refine bind_eq_some_of (hyear _) ?_
  refine bind_eq_some_of (readMark?_self (by decide) _) ?_
  refine bind_eq_some_of (htwo (by omega) _) ?_
  refine bind_eq_some_of (readMark?_self (by decide) _) ?_
  refine bind_eq_some_of (htwo (by omega) _) ?_
  refine (if_pos hmark).trans ?_
  refine bind_eq_some_of rfl ?_
  -- the time of day, up to the distance from UTC
  refine bind_eq_some_of (htwo (s.hour_lt.trans (by decide)) _) ?_
  refine bind_eq_some_of (readMark?_self (by decide) _) ?_
  refine bind_eq_some_of (htwo (s.minute_lt.trans (by decide)) _) ?_
  refine bind_eq_some_of (readMark?_self (by decide) _) ?_
  refine bind_eq_some_of (htwo (s.second_lt.trans (by decide)) _) ?_
  refine bind_eq_some_of s.readFraction?_fractionChars ?_
  refine bind_eq_some_of hoffset ?_
  rfl

theorem isValid_reading : s.reading.isValid = true := by
  have hyear := s.year_mem
  have hrange : isYearInRange s.date.year = true := by
    simp only [isYearInRange, Bool.and_eq_true, decide_eq_true_eq]
    omega
  simp only [Reading.isValid, Bool.and_eq_true, decide_eq_true_eq]
  exact ⟨⟨⟨⟨⟨hrange, s.isValid_date⟩, s.hour_lt⟩, s.minute_lt⟩, s.second_lt.le⟩,
    s.isValid_zone.natAbs_seconds_lt⟩

/-- The day of the instant is the day that is written, or one beside it. -/
theorem day_instant : s.date.dayNumber - 1 ≤ s.instant.second / 86400 ∧
    s.instant.second / 86400 ≤ s.date.dayNumber + 1 := by
  have hzone := s.isValid_zone.natAbs_seconds_lt
  have hhour := s.hour_lt
  have hminute := s.minute_lt
  have hsecond := s.second_lt
  rw [Date.dayNumber_eq s.year_mem.1 s.isValid_date, instant]
  dsimp only
  omega

/-- The year of the instant has four digits, or is the one before or after those. -/
theorem isYearInRange_instant : isYearInRange s.instant.date.year = true := by
  obtain ⟨hlower, hupper⟩ := s.day_instant
  obtain ⟨hfrom, hto⟩ := Date.dayNumber_mem_year s.isValid_date
  have hfirst : Date.newYear 0 ≤ s.date.dayNumber :=
    (Date.newYear_mono s.year_mem.1).trans hfrom
  have hlast : s.date.dayNumber < Date.newYear 10000 :=
    hto.trans_le (Date.newYear_mono (by have hyear := s.year_mem; omega))
  have hbefore : Date.newYear (-1) + 365 ≤ Date.newYear 0 := by decide
  have hafter : Date.newYear 10000 + 366 ≤ Date.newYear 10001 := by decide
  have hleast : -1 ≤ s.instant.date.year := Date.le_year_ofDayNumber_iff.2 (by
    rw [Instant.secondsPerDay]
    omega)
  have hgreatest : ¬ 10001 ≤ s.instant.date.year := fun h => by
    have hday := Date.le_year_ofDayNumber_iff.1 h
    rw [Instant.secondsPerDay] at hday
    omega
  simp only [isYearInRange, Bool.and_eq_true, decide_eq_true_eq]
  omega

/-- The parts state the instant that the time states. -/
theorem instant?_reading : s.reading.instant? = some s.instant := by
  have hleap : s.second / 60 = 0 := Nat.div_eq_of_lt s.second_lt
  have hinstant : Instant.mk (s.date.dayNumber * Instant.secondsPerDay +
      (s.hour * 3600 + s.minute * 60 + (s.second - 0) : Nat) - s.zone.seconds)
      (s.fraction * 10 ^ (9 - s.places)) = s.instant := by
    rw [instant, Date.dayNumber_eq s.year_mem.1 s.isValid_date]
    push_cast
    rfl
  simp only [Reading.instant?, reading, hleap, Nat.zero_mul, Nat.add_zero, hinstant]
  exact if_pos s.isYearInRange_instant

/-- The text of a time is read as the instant that the time states. -/
theorem read?_text : Instant.read? s.text = some s.instant := by
  rw [Instant.read?, text, String.toList_ofList, s.readParts?_chars, Option.bind_some,
    s.isValid_reading, if_pos rfl, s.instant?_reading]

end Timestamp

end NavPolicy.Time
