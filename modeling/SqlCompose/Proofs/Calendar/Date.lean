import SqlCompose.Calendar.Date

/-!
# Dates and their numbers

Every number of a day belongs to one year, one month and one day. `ofNumber?_eq_some` says that the
date that is found for a number is the one whose number it is, and that none is found only where the
calendar has none.
-/

namespace SqlCompose.Calendar

/-! ## Years -/

/-- The number of days of a year. -/
def daysInYear (year : Int) : Nat := if isLeap year then 366 else 365

/-- The days before a year, with the leap years counted by the Gregorian rule. -/
theorem daysBeforeYear_eq (year : Int) : daysBeforeYear year =
    365 * (year - 1) + (year - 1) / 4 - (year - 1) / 100 + (year - 1) / 400 := rfl

/-- A year begins after all the days of the year before it. -/
theorem daysBeforeYear_succ (year : Int) :
    daysBeforeYear (year + 1) = daysBeforeYear year + daysInYear year := by
  rw [daysBeforeYear_eq, daysBeforeYear_eq, daysInYear, isLeap]
  by_cases h : year % 4 = 0 ∧ (year % 100 ≠ 0 ∨ year % 400 = 0)
  · rw [decide_eq_true h, if_pos rfl]
    omega
  · rw [decide_eq_false h, if_neg Bool.false_ne_true]
    omega

/-- Later years begin later. -/
theorem daysBeforeYear_mono {year later : Int} (h : year ≤ later) :
    daysBeforeYear year ≤ daysBeforeYear later := by
  rw [daysBeforeYear_eq, daysBeforeYear_eq]
  omega

/-- A number lies within one year only. -/
theorem year_unique {n year year' : Int} (hlow : daysBeforeYear year < n)
    (hhigh : n ≤ daysBeforeYear (year + 1)) (hlow' : daysBeforeYear year' < n)
    (hhigh' : n ≤ daysBeforeYear (year' + 1)) : year = year' := by
  rcases Int.lt_trichotomy year year' with hlt | heq | hgt
  · have := daysBeforeYear_mono (Int.add_one_le_of_lt hlt)
    omega
  · exact heq
  · have := daysBeforeYear_mono (Int.add_one_le_of_lt hgt)
    omega

/-- The year that is found for a number holds it. The year after the last one of four, of a
century or of an era counts for the leap days. -/
theorem yearOfNumber_spec (n : Int) :
    1 ≤ (Date.yearOfNumber n).2 ∧
      daysBeforeYear (Date.yearOfNumber n).1 + (Date.yearOfNumber n).2 = n ∧
      n ≤ daysBeforeYear ((Date.yearOfNumber n).1 + 1) := by
  simp only [Date.yearOfNumber, daysBeforeYear_eq]
  generalize hinEra : (n - 1) % 146097 = inEra
  generalize hera : (n - 1) / 146097 = era
  generalize hcentury : min (inEra / 36524) 3 = century
  generalize hinCentury : inEra - century * 36524 = inCentury
  generalize hcycle : inCentury / 1461 = cycle
  generalize hinCycle : inCentury - cycle * 1461 = inCycle
  generalize hyear : min (inCycle / 365) 3 = year
  have h4 : (era * 400 + century * 100 + cycle * 4 + year) / 4 =
      era * 100 + century * 25 + cycle := by omega
  have h100 : (era * 400 + century * 100 + cycle * 4 + year) / 100 = era * 4 + century := by omega
  have h400 : (era * 400 + century * 100 + cycle * 4 + year) / 400 = era := by omega
  have hsplit : n = era * 146097 + century * 36524 + cycle * 1461 + inCycle + 1 := by omega
  have hcycleRange : 0 ≤ inCycle ∧ inCycle ≤ 1460 := by omega
  simp only [Int.add_sub_cancel, h4, h100, h400]
  refine ⟨by omega, by omega, ?_⟩
  have hcycleBounds : 0 ≤ cycle ∧ cycle ≤ 24 := by omega
  have hcenturyBounds : 0 ≤ century ∧ century ≤ 3 := by omega
  generalize hlast : era * 400 + century * 100 + cycle * 4 + year = last at h4 h100 h400 ⊢
  have h4' : (last + 1) / 4 = if year = 3 then last / 4 + 1 else last / 4 := by
    split <;> omega
  have h100' : (last + 1) / 100 =
      if year = 3 ∧ cycle = 24 then last / 100 + 1 else last / 100 := by
    split <;> omega
  have h400' : (last + 1) / 400 =
      if year = 3 ∧ cycle = 24 ∧ century = 3 then last / 400 + 1 else last / 400 := by
    split <;> omega
  rw [h4', h100', h400', h4, h100, h400]
  split <;> split <;> split <;> omega

/-! ## Months -/

variable {year : Int}

/-- January begins with its year. -/
theorem daysBeforeMonth_one (year : Int) : daysBeforeMonth year 1 = 0 := rfl

/-- A month begins after all the days of the month before it. -/
theorem daysBeforeMonth_succ (year : Int) {month : Nat} (h : 1 ≤ month) :
    daysBeforeMonth year (month + 1) = daysBeforeMonth year month + daysInMonth year month := by
  unfold daysBeforeMonth
  rw [List.range_succ, List.foldl_append, List.foldl_cons, List.foldl_nil, if_neg (by omega)]

/-- Later months of one year begin later. -/
theorem daysBeforeMonth_mono (year : Int) {month later : Nat} (h : 1 ≤ month)
    (hle : month ≤ later) : daysBeforeMonth year month ≤ daysBeforeMonth year later := by
  induction hle with
  | refl => exact Nat.le_refl _
  | step hle ih =>
    rw [daysBeforeMonth_succ year (Nat.le_trans h hle)]
    omega

/-- The months of a year take all of its days. -/
theorem daysBeforeMonth_last (year : Int) : daysBeforeMonth year 13 = daysInYear year := by
  unfold daysInYear
  cases h : isLeap year <;>
    simp [daysBeforeMonth_succ, daysBeforeMonth_one, daysInMonth, h]

/-- A day of a year lies within one month only. -/
theorem month_unique {n month month' : Nat} (hmonth : 1 ≤ month) (hmonth' : 1 ≤ month')
    (hlow : daysBeforeMonth year month < n)
    (hhigh : n ≤ daysBeforeMonth year month + daysInMonth year month)
    (hlow' : daysBeforeMonth year month' < n)
    (hhigh' : n ≤ daysBeforeMonth year month' + daysInMonth year month') : month = month' := by
  rw [← daysBeforeMonth_succ year hmonth] at hhigh
  rw [← daysBeforeMonth_succ year hmonth'] at hhigh'
  rcases Nat.lt_trichotomy month month' with hlt | heq | hgt
  · have := daysBeforeMonth_mono year (by omega) (show month + 1 ≤ month' from hlt)
    omega
  · exact heq
  · have := daysBeforeMonth_mono year (by omega) (show month' + 1 ≤ month from hgt)
    omega

/-- The month that is found for a day of a year holds it. -/
theorem monthOfDay_spec {fuel month day : Nat} (hfuel : month + fuel = 12) (hmonth : 1 ≤ month)
    (hday : 1 ≤ day) (hlast : daysBeforeMonth year month + day ≤ daysInYear year) :
    let found := Date.monthOfDay year fuel month day
    1 ≤ found.1 ∧ found.1 ≤ 12 ∧ 1 ≤ found.2 ∧ found.2 ≤ daysInMonth year found.1 ∧
      daysBeforeMonth year found.1 + found.2 = daysBeforeMonth year month + day := by
  induction fuel generalizing month day with
  | zero =>
    obtain rfl : month = 12 := hfuel
    have hend := daysBeforeMonth_succ year hmonth
    rw [daysBeforeMonth_last] at hend
    exact ⟨hmonth, Nat.le_refl _, hday, by show day ≤ daysInMonth year 12; omega, rfl⟩
  | succ fuel ih =>
    rw [Date.monthOfDay]
    split
    · exact ⟨hmonth, by show month ≤ 12; omega, hday, by assumption, rfl⟩
    · have hnext := daysBeforeMonth_succ year hmonth
      have hfound := ih (show month + 1 + fuel = 12 by omega) (by omega)
        (show 1 ≤ day - daysInMonth year month by omega) (by omega)
      refine ⟨hfound.1, hfound.2.1, hfound.2.2.1, hfound.2.2.2.1, ?_⟩
      have := hfound.2.2.2.2
      omega

/-! ## Dates -/

namespace Date

/-- A date is a year in range, a month of the year and a day of that month. -/
theorem isDate_iff {month day : Nat} : isDate year month day = true ↔
    (firstYear ≤ year ∧ year ≤ lastYear) ∧ (1 ≤ month ∧ month ≤ 12) ∧ 1 ≤ day ∧
      day ≤ daysInMonth year month := by
  simp [isDate, and_assoc]

/-- Building a date gives exactly the one with the three parts asked for. -/
theorem of?_eq_some {month day : Nat} {d : Date} :
    of? year month day = some d ↔ d.year = year ∧ d.month = month ∧ d.day = day := by
  unfold of?
  constructor
  · intro h
    split at h
    · obtain rfl := Option.some.inj h
      exact ⟨rfl, rfl, rfl⟩
    · cases h
  · rintro ⟨rfl, rfl, rfl⟩
    rw [dif_pos d.exists_day]

/-- The day of its year that a date is. -/
def dayOfYear (d : Date) : Nat := daysBeforeMonth d.year d.month + d.day

/-- The number of a day within its year runs from one to the length of the year. -/
theorem dayOfYear_bounds (d : Date) : 1 ≤ d.dayOfYear ∧ d.dayOfYear ≤ daysInYear d.year := by
  obtain ⟨-, ⟨hmonth, hmonth'⟩, hday, hday'⟩ := isDate_iff.mp d.exists_day
  have hnext := daysBeforeMonth_succ d.year hmonth
  have hmono := daysBeforeMonth_mono d.year (by omega) (show d.month + 1 ≤ 13 by omega)
  rw [daysBeforeMonth_last] at hmono
  unfold dayOfYear
  omega

/-- The number of a day splits into the days before its year and the day within it. -/
theorem number_eq (d : Date) : d.number = daysBeforeYear d.year + d.dayOfYear := by
  unfold number dayOfYear
  omega

/-- The year and the day of the year that are found for the number of a date are its own. -/
theorem yearOfNumber_number (d : Date) : yearOfNumber d.number = (d.year, d.dayOfYear) := by
  obtain ⟨hfirst, hnumber, hlast⟩ := yearOfNumber_spec d.number
  have hbounds := d.dayOfYear_bounds
  have hnext := daysBeforeYear_succ d.year
  have hd := d.number_eq
  have hyear : (yearOfNumber d.number).1 = d.year :=
    year_unique (by omega) hlast (by omega) (by omega)
  rw [hyear] at hnumber
  exact Prod.ext hyear (by show (yearOfNumber d.number).2 = d.dayOfYear; omega)

/-- A date is found for a number if and only if it is the date with that number. -/
theorem ofNumber?_eq_some {n : Int} {d : Date} : ofNumber? n = some d ↔ d.number = n := by
  have hunfold : ofNumber? n = of? (yearOfNumber n).1
      (monthOfDay (yearOfNumber n).1 11 1 (yearOfNumber n).2).1
      (monthOfDay (yearOfNumber n).1 11 1 (yearOfNumber n).2).2 := rfl
  obtain ⟨hfirst, hnumber, hlast⟩ := yearOfNumber_spec n
  rw [daysBeforeYear_succ] at hlast
  obtain ⟨hmonth, hmonth', hday, hday', hfound⟩ := monthOfDay_spec (show 1 + 11 = 12 from rfl)
    (Nat.le_refl 1) hfirst
    (show daysBeforeMonth (yearOfNumber n).1 1 + (yearOfNumber n).2 ≤ daysInYear (yearOfNumber n).1 by
      rw [daysBeforeMonth_one]
      omega)
  rw [daysBeforeMonth_one, Nat.zero_add] at hfound
  rw [hunfold, of?_eq_some]
  constructor
  · rintro ⟨hy, hm, hd⟩
    rw [number, hy, hm, hd]
    omega
  · rintro rfl
    rw [yearOfNumber_number] at hmonth hmonth' hday hday' hfound ⊢
    dsimp only at hmonth hmonth' hday hday' hfound ⊢
    obtain ⟨-, ⟨hdm, -⟩, hdd, hdd'⟩ := isDate_iff.mp d.exists_day
    have hd : d.dayOfYear = daysBeforeMonth d.year d.month + d.day := rfl
    have hm := month_unique hdm hmonth (show daysBeforeMonth d.year d.month < d.dayOfYear by omega)
      (by omega) (by omega) (by omega)
    refine ⟨rfl, hm, ?_⟩
    rw [← hm] at hfound
    omega

end Date

end SqlCompose.Calendar
