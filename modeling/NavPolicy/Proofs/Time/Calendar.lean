import NavPolicy.Time.Instant

/-!
# Days and dates

The date of a day exists (`Date.isValid_ofDayNumber`), and its day is the one it was found for
(`Date.dayNumber_ofDayNumber`).  Both are read off the place that the day has in the calendar, which counts
years from March: there each cycle of years but the last one of its kind has the same length, so that the place
is found by dividing.
-/

namespace NavPolicy.Time

namespace Date

/-! ## Places in the calendar -/

/-- A place in the calendar counted from a March: a cycle of 400 years, a century and a cycle of four years in
it, a year of those, and a day of that year.  Only a year that ends in a leap day has a day 365. -/
structure Place where
  era : Int
  century : Int
  cycle : Int
  year : Int
  day : Int
  century_mem : 0 ≤ century ∧ century ≤ 3
  cycle_mem : 0 ≤ cycle ∧ cycle ≤ 24
  year_mem : 0 ≤ year ∧ year ≤ 3
  day_mem : 0 ≤ day ∧ day ≤ 365
  year_of_leapDay : day = 365 → year = 3 ∧ (cycle = 24 → century = 3)

namespace Place

variable (p : Place)

/-- The days of the cycle of 400 years that have passed. -/
def dayOfEra : Int := 36524 * p.century + 1461 * p.cycle + 365 * p.year + p.day

/-- The years of the cycle of 400 years that have passed. -/
def yearOfEra : Int := 100 * p.century + 4 * p.cycle + p.year

/-- Every day has a place. -/
theorem exists_dayNumber_eq (n : Int) : ∃ p : Place, n = 146097 * p.era + p.dayOfEra - 719468 := by
  obtain ⟨m, hm⟩ : ∃ m, m = (n + 719468) % 146097 := ⟨_, rfl⟩
  obtain ⟨c, hc⟩ : ∃ c, c = min (m / 36524) 3 := ⟨_, rfl⟩
  obtain ⟨q, hq⟩ : ∃ q, q = (m - 36524 * c) / 1461 := ⟨_, rfl⟩
  obtain ⟨r, hr⟩ : ∃ r, r = min ((m - 36524 * c - 1461 * q) / 365) 3 := ⟨_, rfl⟩
  refine ⟨⟨(n + 719468) / 146097, c, q, r, m - 36524 * c - 1461 * q - 365 * r, ?_, ?_, ?_, ?_, ?_⟩, ?_⟩
  · omega
  · omega
  · omega
  · omega
  · omega
  · simp only [dayOfEra]
    omega

/-- A cycle of 400 years has 146097 days. -/
theorem dayOfEra_mem : 0 ≤ p.dayOfEra ∧ p.dayOfEra < 146097 := by
  obtain ⟨era, c, q, r, d, hc, hq, hr, hd, hleap⟩ := p
  simp only [dayOfEra]
  omega

theorem yearOfEra_mem : 0 ≤ p.yearOfEra ∧ p.yearOfEra < 400 := by
  obtain ⟨era, c, q, r, d, hc, hq, hr, hd, hleap⟩ := p
  simp only [yearOfEra]
  omega

/-- The years of the cycle that have passed, found from its days: the days that lengthen a year are taken out
first, and what is left are years of 365 days. -/
theorem yearOfEra_eq :
    (p.dayOfEra - p.dayOfEra / 1460 + p.dayOfEra / 36524 - p.dayOfEra / 146096) / 365 =
      p.yearOfEra := by
  obtain ⟨era, c, q, r, d, hc, hq, hr, hd, hleap⟩ := p
  simp only [dayOfEra, yearOfEra]
  have hcycles : (36524 * c + 1461 * q + 365 * r + d) / 1460 =
      25 * c + q + (24 * c + q + 365 * r + d) / 1460 := by omega
  have hcenturies : (36524 * c + 1461 * q + 365 * r + d) / 36524 -
      (36524 * c + 1461 * q + 365 * r + d) / 146096 = c := by
    by_cases hlast : 36524 * c + 1461 * q + 365 * r + d = 146096
    · omega
    · have hrest : 0 ≤ 1461 * q + 365 * r + d ∧ 1461 * q + 365 * r + d < 36524 := by omega
      omega
  have hlast : 0 ≤ d - (24 * c + q + 365 * r + d) / 1460 ∧
      d - (24 * c + q + 365 * r + d) / 1460 < 365 := by omega
  omega

/-- A year with a day 365 ends in the February of a leap year. -/
theorem isLeapYear_of_day (h : p.day = 365) : isLeapYear (p.yearOfEra + p.era * 400 + 1) = true := by
  obtain ⟨era, c, q, r, d, hc, hq, hr, hd, hleap⟩ := p
  obtain ⟨rfl, hcycle⟩ := hleap h
  simp only [yearOfEra, isLeapYear, Bool.and_eq_true, Bool.or_eq_true]
  refine ⟨decide_eq_true (by omega), ?_⟩
  by_cases hend : q = 24
  · exact .inr (decide_eq_true (by omega))
  · exact .inl (decide_eq_true (by omega))

/-- The days of the year that have passed, found from those of the cycle. -/
theorem dayOfYear_eq :
    p.dayOfEra - (365 * p.yearOfEra + p.yearOfEra / 4 - p.yearOfEra / 100) = p.day := by
  obtain ⟨era, c, q, r, d, hc, hq, hr, hd, hleap⟩ := p
  simp only [dayOfEra, yearOfEra]
  omega

/-! ## Dates of places -/

/-- The months from March on that have passed. -/
def month : Int := (5 * p.day + 2) / 153

/-- The day of the month, from one on. -/
def dayOfMonth : Int := p.day - (153 * p.month + 2) / 5 + 1

theorem month_mem : 0 ≤ p.month ∧ p.month ≤ 11 := by
  have hday := p.day_mem
  simp only [month]
  omega

theorem one_le_dayOfMonth : 1 ≤ p.dayOfMonth := by
  have hday := p.day_mem
  simp only [dayOfMonth, month]
  omega

/-- The date that falls on the place. -/
def date : Date where
  year := p.yearOfEra + p.era * 400 + if p.month < 10 then 0 else 1
  month := (if p.month < 10 then p.month + 3 else p.month - 9).toNat
  day := p.dayOfMonth.toNat

/-- The date of a day is the one of its place. -/
theorem ofDayNumber_eq : ofDayNumber (146097 * p.era + p.dayOfEra - 719468) = p.date := by
  have hday := p.dayOfEra_mem
  have hera : (146097 * p.era + p.dayOfEra) / 146097 = p.era := by omega
  have hrest : (146097 * p.era + p.dayOfEra) % 146097 = p.dayOfEra := by omega
  have hmonth := p.month_mem
  simp only [ofDayNumber, Int.sub_add_cancel, hera, hrest, yearOfEra_eq, dayOfYear_eq]
  show Date.mk (p.yearOfEra + p.era * 400 + _) _ _ = p.date
  rw [date, ← month]
  congr 2
  split <;> split <;> first | rfl | omega

theorem month_date : (p.month < 10 ∧ (p.date.month : Int) = p.month + 3) ∨
    (10 ≤ p.month ∧ (p.date.month : Int) = p.month - 9) := by
  have hmonth := p.month_mem
  simp only [date]
  split <;> omega

theorem day_date : (p.date.day : Int) = p.dayOfMonth := by
  have hfirst := p.one_le_dayOfMonth
  simp only [date]
  omega

/-- The date of a place is as many days away as the place is. -/
theorem dayNumber_date : p.date.dayNumber = 146097 * p.era + p.dayOfEra - 719468 := by
  have hmonth := p.month_mem
  have hmonths := p.month_date
  have hyears := p.yearOfEra_mem
  have hyear : (if p.date.month ≤ 2 then p.date.year - 1 else p.date.year) =
      p.yearOfEra + p.era * 400 := by
    simp only [show p.date.year = p.yearOfEra + p.era * 400 + if p.month < 10 then 0 else 1 from rfl]
    split <;> split <;> omega
  have hfromMarch : ((p.date.month : Int) + 9) % 12 = p.month := by omega
  have hday : (p.date.day : Int) - 1 = p.day - (153 * p.month + 2) / 5 := by
    rw [p.day_date, dayOfMonth]
    omega
  have hera : (p.yearOfEra + p.era * 400) / 400 = p.era := by omega
  have hrest : (p.yearOfEra + p.era * 400) % 400 = p.yearOfEra := by omega
  have hdays := p.dayOfYear_eq
  simp only [dayNumber, hyear, hfromMarch, hday, hera, hrest]
  omega

/-- February is the last month, so that its length decides on the last day of the year alone. -/
theorem dayOfMonth_le : p.date.day ≤ daysInMonth p.date.year p.date.month := by
  have hmonth : p.month = (5 * p.day + 2) / 153 := rfl
  have hday : (p.date.day : Int) = p.day - (153 * p.month + 2) / 5 + 1 := p.day_date
  have hmem := p.day_mem
  have hmonths := p.month_date
  rw [daysInMonth]
  split
  · have hlast : p.month = 11 := by omega
    split
    · omega
    · rename_i hcommon
      have hyear : p.date.year = p.yearOfEra + p.era * 400 + 1 := by simp [date, hlast]
      have hnot : p.day ≠ 365 := fun h => hcommon (by rw [hyear, p.isLeapYear_of_day h])
      omega
  · split <;> omega

theorem isValid_date : p.date.IsValid := by
  have hmonth := p.month_mem
  have hmonths := p.month_date
  have hfirst := p.one_le_dayOfMonth
  have hday := p.day_date
  exact ⟨by omega, by omega, by omega, p.dayOfMonth_le⟩

end Place

/-! ## Days and dates -/

/-- The date of a day falls on this day. -/
theorem dayNumber_ofDayNumber (n : Int) : (ofDayNumber n).dayNumber = n := by
  obtain ⟨p, rfl⟩ := Place.exists_dayNumber_eq n
  rw [p.ofDayNumber_eq, p.dayNumber_date]

/-- Each day has a date that exists. -/
theorem isValid_ofDayNumber (n : Int) : (ofDayNumber n).IsValid := by
  obtain ⟨p, rfl⟩ := Place.exists_dayNumber_eq n
  rw [p.ofDayNumber_eq]
  exact p.isValid_date

end Date

end NavPolicy.Time
