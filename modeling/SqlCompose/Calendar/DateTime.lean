import SqlCompose.Calendar.Date

/-!
# Times of day and moments

A time of day has an hour, a minute, a second and the nanoseconds since this second began. In a leap
second the nanoseconds go on beyond the first 1000000000: it follows the second that is named, and
may follow any second. A moment is a date with a time of day.

The fraction, its range and the second in which it is shown are those of release 0.4 of `chrono`.
-/

namespace SqlCompose.Calendar

/-- The nanoseconds of a second. -/
def nanosPerSecond : Nat := 1000000000

/-- Whether four numbers name a time of day; a leap second takes up to two seconds of nanoseconds. -/
def isClock (hour minute second nano : Nat) : Bool :=
  decide (hour < 24 ∧ minute < 60 ∧ second < 60 ∧ nano < 2 * nanosPerSecond)

/-- A time of day. -/
structure Clock where
  /-- The hour, up to 23. -/
  hour : Nat
  /-- The minute, up to 59. -/
  minute : Nat
  /-- The second, up to 59. -/
  second : Nat
  /-- The nanoseconds since the second began; from 1000000000 on they are in a leap second. -/
  nano : Nat
  /-- The four name a time. -/
  in_day : isClock hour minute second nano = true
deriving DecidableEq, Repr

namespace Clock

/-- The time of day with an hour, a minute, a second and nanoseconds. -/
def of? (hour minute second nano : Nat) : Option Clock :=
  if h : isClock hour minute second nano = true then some ⟨hour, minute, second, nano, h⟩ else none

/-- The time of day that is shown as an hour, a minute, a second and a fraction; the second 60 is
the leap second that follows the second 59. -/
def ofShown? (hour minute second fraction : Nat) : Option Clock :=
  if second = 60 then of? hour minute 59 (nanosPerSecond + fraction)
  else of? hour minute second fraction

/-- Whether a time of day is in a leap second. -/
def inLeapSecond (t : Clock) : Bool := decide (nanosPerSecond ≤ t.nano)

/-- The second that is shown; a leap second is shown as the second that follows. -/
def shownSecond (t : Clock) : Nat := t.second + t.nano / nanosPerSecond

/-- The fraction of the second that is shown, in nanoseconds. -/
def fraction (t : Clock) : Nat := t.nano % nanosPerSecond

end Clock

/-- A date with a time of day. -/
structure DateTime where
  /-- The date. -/
  date : Date
  /-- The time of day. -/
  clock : Clock
deriving DecidableEq, Repr

namespace DateTime

/-- The nanoseconds from the start of the day with number 0 to a moment; a leap second counts as
the second that follows. -/
def nanos (t : DateTime) : Int :=
  (((t.date.number * 24 + t.clock.hour) * 60 + t.clock.minute) * 60 + t.clock.second)
    * nanosPerSecond + t.clock.nano

/-- The moment, not in a leap second, that lies a number of nanoseconds after the start of the
day with number 0. -/
def ofNanos? (n : Int) : Option DateTime := do
  let seconds := n / nanosPerSecond
  let minutes := seconds / 60
  let hours := minutes / 60
  let date ← Date.ofNumber? (hours / 24)
  let clock ← Clock.of? (hours % 24).toNat (minutes % 60).toNat (seconds % 60).toNat
    (n % nanosPerSecond).toNat
  some ⟨date, clock⟩

/-- The moment a number of minutes earlier, at the same second. -/
def minutesBefore? (t : DateTime) (minutes : Int) : Option DateTime := do
  let total := (t.date.number * 24 + t.clock.hour) * 60 + t.clock.minute - minutes
  let date ← Date.ofNumber? (total / 1440)
  let clock ← Clock.of? (total % 1440 / 60).toNat (total % 60).toNat t.clock.second t.clock.nano
  some ⟨date, clock⟩

end DateTime

end SqlCompose.Calendar
