import Mathlib.Tactic.IntervalCases
import NavPolicy.Proofs.Time.Calendar

/-!
# Counting days

The days before a date are counted year by year and month by month (`Date.dayCount`).  The number of the
day of a date is this count, less that of the start of 1970 (`Date.dayNumber_eq`): each new year comes as
many days after the one before it as that year has days.  So the days of a year are those from its new year
to the next one (`Date.year_ofDayNumber_lt_iff`).
-/

namespace NavPolicy.Time

theorem isLeapYear_iff (year : Int) :
    isLeapYear year = true ↔ year % 4 = 0 ∧ (year % 100 ≠ 0 ∨ year % 400 = 0) := by
  simp [isLeapYear]

/-- The number of days of a year. -/
def daysInYear (year : Int) : Nat := if isLeapYear year then 366 else 365

/-- The number of days of the years from 0 on before a year. -/
def daysOfYears : Nat → Nat
  | 0 => 0
  | year + 1 => daysOfYears year + daysInYear year

/-- The number of days of the first months of a year. -/
def daysOfMonths (year : Int) : Nat → Nat
  | 0 => 0
  | month + 1 => daysOfMonths year month + daysInMonth year (month + 1)

namespace Date

/-- The number of days from the start of the year 0 to a date of that year or later. -/
def dayCount (d : Date) : Nat := daysOfYears d.year.toNat + daysOfMonths d.year (d.month - 1) + (d.day - 1)

/-- The number of the first day of a year. -/
def newYear (year : Int) : Int := dayNumber ⟨year, 1, 1⟩

/-- The number of the first day of a year, from the leap days before it. -/
theorem newYear_eq (year : Int) : newYear year =
    365 * (year - 1) + (year - 1) / 4 - (year - 1) / 100 + (year - 1) / 400 - 719162 := by
  have hmonth : (((1 : Nat) : Int) + 9) % 12 = 10 := by decide
  simp only [newYear, dayNumber, hmonth, if_pos (show 1 ≤ 2 by decide)]
  omega

/-- A new year comes as many days after the one before it as that year has days. -/
theorem newYear_add_one (year : Int) : newYear (year + 1) = newYear year + daysInYear year := by
  have hleap := isLeapYear_iff year
  rw [newYear_eq, newYear_eq, daysInYear, Int.add_sub_cancel]
  split
  · rename_i h
    have := hleap.1 h
    push_cast
    omega
  · rename_i h
    have := mt hleap.2 h
    push_cast
    omega

/-- New years come in the order of the years. -/
theorem newYear_mono {first second : Int} (h : first ≤ second) : newYear first ≤ newYear second :=
  monotone_int_of_le_succ (fun year => by rw [newYear_add_one]; omega) h

/-- The months of a year are the days of the year. -/
theorem daysOfMonths_twelve (year : Int) : daysOfMonths year 12 = daysInYear year := by
  simp only [daysOfMonths, daysInMonth, daysInYear]
  cases isLeapYear year <;> rfl

/-- The days of months add up. -/
theorem daysOfMonths_mono (year : Int) : Monotone (daysOfMonths year) :=
  monotone_nat_of_le_succ fun month => Nat.le_add_right (daysOfMonths year month) _

/-- The days of the months before one, in terms of its place in a count from March, which the year that is
counted from the March before goes into for the months before it. -/
theorem daysOfMonths_eq (year : Int) {month : Nat} (h : 1 ≤ month ∧ month ≤ 12) :
    (daysOfMonths year (month - 1) : Int) =
      (153 * (((month : Int) + 9) % 12) + 2) / 5 - 306 + if month ≤ 2 then 0 else daysInYear year := by
  obtain ⟨hfirst, hlast⟩ := h
  cases hleap : isLeapYear year <;> interval_cases month <;>
    simp [daysOfMonths, daysInMonth, daysInYear, hleap]

/-- The number of a day is that of the new year before it and the days of the months since. -/
theorem dayNumber_eq_newYear_add {d : Date} (h : 1 ≤ d.month ∧ d.month ≤ 12) :
    d.dayNumber = newYear d.year + daysOfMonths d.year (d.month - 1) + (d.day - 1) := by
  have hjanuary : (((1 : Nat) : Int) + 9) % 12 = 10 := by decide
  -- from March on the days are counted to the next new year, which comes after the leap day
  have hfromMarch : d.dayNumber = newYear (if d.month ≤ 2 then d.year else d.year + 1) +
      ((153 * (((d.month : Int) + 9) % 12) + 2) / 5 - 306) + (d.day - 1) := by
    simp only [newYear, dayNumber, hjanuary, if_pos (show 1 ≤ 2 by decide)]
    split <;> omega
  rw [hfromMarch, daysOfMonths_eq d.year h]
  split
  · omega
  · rw [newYear_add_one]
    omega

/-- A date falls between the new year of its year and the next one. -/
theorem dayNumber_mem_year {d : Date} (h : d.IsValid) :
    newYear d.year ≤ d.dayNumber ∧ d.dayNumber < newYear (d.year + 1) := by
  obtain ⟨hfirst, hlast, hday, hdays⟩ := h
  have hmonth : daysOfMonths d.year (d.month - 1) + daysInMonth d.year d.month =
      daysOfMonths d.year d.month := by
    obtain ⟨month, hm⟩ := Nat.exists_eq_add_of_le' hfirst
    rw [hm]
    rfl
  have hyear : daysOfMonths d.year d.month ≤ daysInYear d.year :=
    daysOfMonths_twelve d.year ▸ daysOfMonths_mono d.year hlast
  rw [dayNumber_eq_newYear_add ⟨hfirst, hlast⟩, newYear_add_one]
  omega

/-- The year of a day is not before a given one just when the day is not before its new year. -/
theorem le_year_ofDayNumber_iff {year n : Int} : year ≤ (ofDayNumber n).year ↔ newYear year ≤ n := by
  obtain ⟨hlower, hupper⟩ := dayNumber_mem_year (isValid_ofDayNumber n)
  rw [dayNumber_ofDayNumber] at hlower hupper
  constructor
  · exact fun h => (newYear_mono h).trans hlower
  · intro h
    by_contra hlt
    exact absurd (h.trans_lt hupper) (not_lt.2 (newYear_mono (by omega)))

/-- New years from that of the year 0 on are counted year by year. -/
theorem newYear_natCast (year : Nat) : newYear year = daysOfYears year - dayCount ⟨1970, 1, 1⟩ := by
  have hcount : ∀ k : Nat, newYear k = daysOfYears k + newYear 0 := by
    intro k
    induction k with
    | zero => simp [daysOfYears]
    | succ k ih =>
      rw [Nat.cast_add_one, newYear_add_one, ih, daysOfYears]
      push_cast
      omega
  have hyear : (1970 : Int).toNat = 1970 := rfl
  have hepoch : dayCount ⟨1970, 1, 1⟩ = daysOfYears 1970 := by
    simp only [dayCount, hyear, Nat.sub_self, daysOfMonths, Nat.add_zero]
  have hzero : newYear (1970 : Nat) = 0 := by rw [newYear_eq]; rfl
  rw [hcount, hepoch]
  have hnow := hcount 1970
  omega

/-- The number of the day of a date is the count of the days before it, less that of the start of 1970. -/
theorem dayNumber_eq {d : Date} (hyear : 0 ≤ d.year) (h : d.IsValid) :
    d.dayNumber = d.dayCount - dayCount ⟨1970, 1, 1⟩ := by
  obtain ⟨hfirst, hlast, hday, -⟩ := h
  have hnewYear := newYear_natCast d.year.toNat
  rw [Int.toNat_of_nonneg hyear] at hnewYear
  have hcount : d.dayCount =
      daysOfYears d.year.toNat + daysOfMonths d.year (d.month - 1) + (d.day - 1) := rfl
  rw [dayNumber_eq_newYear_add ⟨hfirst, hlast⟩, hnewYear]
  omega

end Date

end NavPolicy.Time
