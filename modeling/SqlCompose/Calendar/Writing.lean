import SqlCompose.Calendar.DateTime
import SqlCompose.Text.Ascii

/-!
# Written dates and times

Years from 0 to 9999 have four digits; all others carry a sign and at least four digits. The
fraction of a second is left out when it is zero, and otherwise has three, six or nine digits, as
few as hold it.
-/

namespace SqlCompose.Calendar

open Text (decimalPadded)

/-- The text of a year. -/
def writeYear (year : Int) : List Char :=
  if year < 0 then '-' :: decimalPadded 4 year.natAbs
  else if year ≤ 9999 then decimalPadded 4 year.natAbs
  else '+' :: decimalPadded 4 year.natAbs

/-- How many digits a fraction of a second is written with. -/
inductive FractionDigits where
  /-- None, three, six or nine, as few as hold the fraction. -/
  | asNeeded
  /-- Nine. -/
  | nine
deriving DecidableEq, Repr

/-- The text of a fraction of a second. -/
def writeFraction (digits : FractionDigits) (nano : Nat) : List Char :=
  match digits with
  | .nine => '.' :: decimalPadded 9 nano
  | .asNeeded =>
    if nano = 0 then []
    else if nano % 1000000 = 0 then '.' :: decimalPadded 3 (nano / 1000000)
    else if nano % 1000 = 0 then '.' :: decimalPadded 6 (nano / 1000)
    else '.' :: decimalPadded 9 nano

/-- The text of a date: year, month and day. -/
def Date.write (d : Date) : List Char :=
  writeYear d.year ++ '-' :: decimalPadded 2 d.month ++ '-' :: decimalPadded 2 d.day

/-- The text of a time of day. -/
def Clock.write (digits : FractionDigits) (t : Clock) : List Char :=
  decimalPadded 2 t.hour ++ ':' :: decimalPadded 2 t.minute ++
    ':' :: decimalPadded 2 t.shownSecond ++ writeFraction digits t.fraction

/-- The text of a moment, with a separator between the date and the time. -/
def DateTime.write (separator : Char) (digits : FractionDigits) (t : DateTime) : List Char :=
  t.date.write ++ separator :: t.clock.write digits

end SqlCompose.Calendar
