import NavPolicy.Proofs.Time.Timestamp

/-!
# Written times are read back

An instant of a year of four digits, if no leap second is in it, is written as the time in UTC that states it
and has the fewest digits (`Instant.IsPlain.isNormal_timestamp`), so that it is read from its written form
(`Instant.read?_write`).  The years of four digits are those from the new year of the year 0 up to that of the
year 10000, counted day by day (`Instant.isPlain_iff`).
-/

namespace NavPolicy.Time

/-- Whether a written time is the one that its instant is written as: in UTC, and with the fewest of 0, 3, 6
or 9 fraction digits that lose nothing of the instant. -/
structure Timestamp.IsNormal (s : Timestamp) : Prop where
  mark_eq : s.mark = 'T'
  zone_eq : s.zone = .utc
  places_mem : s.places ∈ [0, 3, 6, 9]
  places_least : ∀ k ∈ [0, 3, 6, 9], 10 ^ (9 - k) ∣ s.instant.nanosecond → s.places ≤ k

namespace Instant

/-- Whether the instant is one of a year of four digits and no leap second. -/
def IsPlain (t : Instant) : Prop :=
  t.nanosecond < 1000000000 ∧ 0 ≤ t.date.year ∧ t.date.year ≤ 9999

variable {t : Instant}

/-- A day has 86400 seconds. -/
theorem secondOfDay_lt (t : Instant) : t.secondOfDay < 86400 := by
  simp only [secondOfDay, secondsPerDay]
  omega

/-- The plain instants are those from the start of the year 0 up to the start of the year 10000, years and
months counted day by day, if no leap second is in them. -/
theorem isPlain_iff : t.IsPlain ↔ t.nanosecond < 1000000000 ∧
    ((daysOfYears 0 : Int) - Date.dayCount ⟨1970, 1, 1⟩) * 86400 ≤ t.second ∧
    t.second < ((daysOfYears 10000 : Int) - Date.dayCount ⟨1970, 1, 1⟩) * 86400 := by
  have hfrom : 0 ≤ t.date.year ↔ Date.newYear (0 : Nat) ≤ t.second / 86400 :=
    Date.le_year_ofDayNumber_iff
  have hto : 10000 ≤ t.date.year ↔ Date.newYear (10000 : Nat) ≤ t.second / 86400 :=
    Date.le_year_ofDayNumber_iff
  rw [Date.newYear_natCast] at hfrom hto
  rw [IsPlain]
  omega

/-! ## Writing -/

/-- The number of fraction digits that nanoseconds are written with. -/
def placesOf (nanosecond : Nat) : Nat :=
  if nanosecond = 0 then 0
  else if nanosecond % 1000000 = 0 then 3
  else if nanosecond % 1000 = 0 then 6
  else 9

/-- The digits that are left out are zeros. -/
theorem div_mul_placesOf (n : Nat) : n / 10 ^ (9 - placesOf n) * 10 ^ (9 - placesOf n) = n := by
  rw [placesOf]
  split
  · omega
  split
  · omega
  split
  · omega
  · omega

/-- With fewer digits something would be lost. -/
theorem placesOf_le {n k : Nat} (hk : k ∈ [0, 3, 6, 9]) (hn : n < 1000000000)
    (h : 10 ^ (9 - k) ∣ n) : placesOf n ≤ k := by
  simp only [List.mem_cons, List.not_mem_nil, or_false] at hk
  rw [placesOf]
  rcases hk with rfl | rfl | rfl | rfl <;> split_ifs <;> omega

theorem placesOf_mem (n : Nat) : placesOf n ∈ [0, 3, 6, 9] := by
  rw [placesOf]
  split
  · decide
  split
  · decide
  split <;> decide

/-- The time that a plain instant is written as. -/
def IsPlain.timestamp (h : t.IsPlain) : Timestamp where
  date := t.date
  mark := 'T'
  hour := t.secondOfDay / 3600
  minute := t.secondOfDay / 60 % 60
  second := t.secondOfDay % 60
  places := placesOf t.nanosecond
  fraction := t.nanosecond / 10 ^ (9 - placesOf t.nanosecond)
  zone := .utc
  year_mem := h.2
  isValid_date := Date.isValid_ofDayNumber _
  mark_mem := by decide
  hour_lt := by have hday := t.secondOfDay_lt; omega
  minute_lt := Nat.mod_lt _ (by decide)
  second_lt := Nat.mod_lt _ (by decide)
  places_le := by
    have hmem := placesOf_mem t.nanosecond
    simp only [List.mem_cons, List.not_mem_nil, or_false] at hmem
    omega
  fraction_lt := by
    have hnano := h.1
    rw [placesOf]
    split
    · omega
    split
    · omega
    split <;> omega
  isValid_zone := trivial

namespace IsPlain

/-- The time states the instant. -/
theorem instant_timestamp (h : t.IsPlain) : h.timestamp.instant = t := by
  have hday : t.date.dayNumber = t.second / 86400 := Date.dayNumber_ofDayNumber _
  rw [Date.dayNumber_eq h.2.1 (Date.isValid_ofDayNumber _)] at hday
  have hsecond : h.timestamp.instant.second = t.second := by
    simp only [Timestamp.instant, timestamp, hday, Zone.seconds, secondOfDay, secondsPerDay]
    omega
  have hnano : h.timestamp.instant.nanosecond = t.nanosecond := div_mul_placesOf t.nanosecond
  calc h.timestamp.instant
      = ⟨h.timestamp.instant.second, h.timestamp.instant.nanosecond⟩ := rfl
    _ = t := by rw [hsecond, hnano]

/-- The fraction is written with the digits of the time. -/
theorem fractionChars_timestamp (h : t.IsPlain) :
    h.timestamp.fractionChars = fractionDigits t.nanosecond := by
  simp only [Timestamp.fractionChars, timestamp, fractionDigits, placesOf]
  by_cases hzero : t.nanosecond = 0
  · simp [hzero]
  by_cases hmillis : t.nanosecond % 1000000 = 0
  · simp [hzero, hmillis]
  by_cases hmicros : t.nanosecond % 1000 = 0
  · simp [hzero, hmillis, hmicros]
  · simp [hzero, hmillis, hmicros]

/-- The written form of the instant is the text of the time. -/
theorem chars_timestamp (h : t.IsPlain) : h.timestamp.chars = t.chars := by
  have hleap : t.nanosecond / 1000000000 = 0 := Nat.div_eq_of_lt h.1
  have hrest : t.nanosecond % 1000000000 = t.nanosecond := Nat.mod_eq_of_lt h.1
  have habs : t.date.year.natAbs = t.date.year.toNat := by
    have hyear := h.2
    omega
  rw [Timestamp.chars, h.fractionChars_timestamp, chars, hleap, hrest, yearDigits, if_pos h.2, habs]
  rfl

/-- The time is in UTC and has the fewest fraction digits that lose nothing. -/
theorem isNormal_timestamp (h : t.IsPlain) : h.timestamp.IsNormal where
  mark_eq := rfl
  zone_eq := rfl
  places_mem := placesOf_mem t.nanosecond
  places_least k hk hdvd := by
    rw [h.instant_timestamp] at hdvd
    exact placesOf_le hk h.1 hdvd

end IsPlain

/-- A plain instant is read from its written form. -/
theorem read?_write (h : t.IsPlain) : read? t.write = some t := by
  have hread := h.timestamp.read?_text
  rwa [Timestamp.text, h.chars_timestamp, h.instant_timestamp] at hread

end Instant

end NavPolicy.Time
