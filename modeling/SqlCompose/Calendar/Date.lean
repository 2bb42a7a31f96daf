/-!
# Dates of the proleptic Gregorian calendar

A date is a year, a month and a day that exist together, within a fixed range of years. Days are
numbered from 1 on the first of January of the year 1; `Date.number` and `Date.ofNumber?` go
between a date and its number.

The range of years and the text of a date are those of release 0.4 of `chrono`.
-/

namespace SqlCompose.Calendar

/-! ## Years and months -/

/-- Whether a year has a twenty-ninth of February. -/
def isLeap (year : Int) : Bool :=
  decide (year % 4 = 0 ∧ (year % 100 ≠ 0 ∨ year % 400 = 0))

/-- The number of days of a month. -/
def daysInMonth (year : Int) (month : Nat) : Nat :=
  match month with
  | 1 | 3 | 5 | 7 | 8 | 10 | 12 => 31
  | 4 | 6 | 9 | 11 => 30
  | 2 => if isLeap year then 29 else 28
  | _ => 0

/-- The number of days of a year before one of its months. -/
def daysBeforeMonth (year : Int) (month : Nat) : Nat :=
  (List.range month).foldl (fun days m => if m = 0 then days else days + daysInMonth year m) 0

/-- The number of days from the first of January of the year 1 to that of a year. -/
def daysBeforeYear (year : Int) : Int :=
  let y := year - 1
  365 * y + y / 4 - y / 100 + y / 400

/-- The first year of the calendar's range. -/
def firstYear : Int := -262143

/-- The last year of the calendar's range. -/
def lastYear : Int := 262142

/-- Whether a year, a month and a day name a day in range. -/
def isDate (year : Int) (month day : Nat) : Bool :=
  decide (firstYear ≤ year ∧ year ≤ lastYear ∧ 1 ≤ month ∧ month ≤ 12 ∧ 1 ≤ day ∧
    day ≤ daysInMonth year month)

/-! ## Dates -/

/-- A date. -/
structure Date where
  /-- The year, counted with a year zero. -/
  year : Int
  /-- The month, from one. -/
  month : Nat
  /-- The day of the month, from one. -/
  day : Nat
  /-- The three name a day. -/
  exists_day : isDate year month day = true
deriving DecidableEq, Repr

namespace Date

/-- The date with a year, a month and a day. -/
def of? (year : Int) (month day : Nat) : Option Date :=
  if h : isDate year month day = true then some ⟨year, month, day, h⟩ else none

/-- The number of a date. -/
def number (d : Date) : Int :=
  daysBeforeYear d.year + daysBeforeMonth d.year d.month + d.day

/-- The month and the day of the month of a day of a year, both counted from one; the search
starts at a month and takes at most `fuel` further ones. -/
def monthOfDay (year : Int) : Nat → Nat → Nat → Nat × Nat
  | 0, month, day => (month, day)
  | fuel + 1, month, day =>
    if day ≤ daysInMonth year month then (month, day)
    else monthOfDay year fuel (month + 1) (day - daysInMonth year month)

/-- The year that holds the day with a number, and which day of it that is. -/
def yearOfNumber (n : Int) : Int × Nat :=
  let offset := n - 1
  let era := offset / 146097
  let inEra := offset % 146097
  let century := min (inEra / 36524) 3
  let inCentury := inEra - century * 36524
  let cycle := inCentury / 1461
  let inCycle := inCentury - cycle * 1461
  let year := min (inCycle / 365) 3
  (era * 400 + century * 100 + cycle * 4 + year + 1, (inCycle - year * 365).toNat + 1)

/-- The date with a number, if it is in range. -/
def ofNumber? (n : Int) : Option Date :=
  let (year, dayOfYear) := yearOfNumber n
  let (month, day) := monthOfDay year 11 1 dayOfYear
  of? year month day

/-- The number of the first of January 2000. -/
def epoch : Int := 730120

end Date

end SqlCompose.Calendar
