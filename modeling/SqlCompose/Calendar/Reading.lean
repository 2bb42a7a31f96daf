import SqlCompose.Calendar.DateTime
import SqlCompose.Text.Ascii
import SqlCompose.Text.Blank

/-!
# Reading dates and times

Blanks may stand before every number. A year without a sign has at most four digits, a signed one
any number; months, days, hours, minutes and seconds have one or two. A moment may have blanks
around its parts, and a fraction of a second beyond nine digits is cut off. The second 60 is read as
a leap second. A moment of the universal clock carries an offset and is moved to offset zero.

These are the rules by which release 0.4 of `chrono` reads dates and moments.
-/

namespace SqlCompose.Calendar

open Text (isDigit isBlank trimStart ofDigits)

/-! ## Parts -/

/-- A number of one digit up to a width, and the text after it. -/
def readNumber? (width : Nat) (text : List Char) : Option (Nat × List Char) :=
  let digits := (text.takeWhile isDigit).take width
  if digits.isEmpty then none else some (ofDigits digits, text.drop digits.length)

/-- A number after blanks. -/
def readField? (width : Nat) (text : List Char) : Option (Nat × List Char) :=
  readNumber? width (trimStart text)

/-- A year after blanks; with a sign it may have any number of digits. -/
def readYear? (text : List Char) : Option (Int × List Char) :=
  match trimStart text with
  | '-' :: rest => (readNumber? rest.length rest).map fun (n, rest) => (-(n : Int), rest)
  | '+' :: rest => (readNumber? rest.length rest).map fun (n, rest) => ((n : Int), rest)
  | rest => (readNumber? 4 rest).map fun (n, rest) => ((n : Int), rest)

/-- The text after a character that has to come next. -/
def readMark? (mark : Char) (text : List Char) : Option (List Char) :=
  match text with
  | c :: rest => if c = mark then some rest else none
  | [] => none

/-- The nanoseconds of a fraction of a second, if one comes next, and the text after it. -/
def readFraction? (text : List Char) : Option (Nat × List Char) :=
  match text with
  | '.' :: rest => do
    let digits := rest.takeWhile isDigit
    if digits.isEmpty then none
    let kept := digits.take 9
    some (ofDigits kept * Nat.pow 10 (9 - kept.length), rest.drop digits.length)
  | _ => some (0, text)

/-! ## Dates -/

/-- A date whose parts have to follow each other closely, apart from the blanks before numbers;
nothing may come after it. -/
def Date.read? (text : String) : Option Date := do
  let (year, rest) ← readYear? text.toList
  let (month, rest) ← readField? 2 (← readMark? '-' rest)
  let (day, rest) ← readField? 2 (← readMark? '-' rest)
  if rest.isEmpty then Date.of? year month day else none

/-- A date with blanks around its parts, and the text after it. -/
def readLooseDate? (text : List Char) : Option ((Int × Nat × Nat) × List Char) := do
  let (year, rest) ← readYear? text
  let (month, rest) ← readField? 2 (← readMark? '-' (trimStart rest))
  let (day, rest) ← readField? 2 (← readMark? '-' (trimStart rest))
  some ((year, month, day), rest)

/-- A time of day with blanks around its parts, and the text after it and its blanks. -/
def readLooseClock? (text : List Char) : Option (Clock × List Char) := do
  let (hour, rest) ← readField? 2 text
  let (minute, rest) ← readField? 2 (← readMark? ':' (trimStart rest))
  let (second, rest) ← readField? 2 (← readMark? ':' (trimStart rest))
  let (fraction, rest) ← readFraction? rest
  some (← Clock.ofShown? hour minute second fraction, trimStart rest)

/-! ## Moments -/

/-- A moment without an offset: date, `T`, time. -/
def DateTime.read? (text : String) : Option DateTime := do
  let ((year, month, day), rest) ← readLooseDate? text.toList
  let (clock, rest) ← readLooseClock? (← readMark? 'T' (trimStart rest))
  if rest.isEmpty then some ⟨← Date.of? year month day, clock⟩ else none

/-- Two decimal digits and the text after them. -/
def readTwoDigits? (text : List Char) : Option (Nat × List Char) :=
  match text with
  | a :: b :: rest => if isDigit a && isDigit b then some (ofDigits [a, b], rest) else none
  | _ => none

/-- An offset from the universal clock in minutes, and the text after it: `Z`, `UTC`, or a sign
with hours and minutes. -/
def readOffset? (text : List Char) : Option (Int × List Char) :=
  match text with
  | 'Z' :: rest => some (0, rest)
  | 'z' :: rest => some (0, rest)
  | c :: rest =>
    if Text.equalIgnoringCase (String.ofList (text.take 3)) "utc" then some (0, text.drop 3)
    else if c = '+' ∨ c = '-' ∨ c = '−' then do
      let (hours, rest) ← readTwoDigits? rest
      let (minutes, rest) ← readTwoDigits? (rest.dropWhile fun d => d == ':' || isBlank d)
      if 24 ≤ hours ∨ 60 ≤ minutes then none
      let total : Int := hours * 60 + minutes
      some (if c = '+' then total else -total, rest)
    else none
  | [] => none

/-- A moment with an offset, moved to offset zero: date, `T` or a blank, time, offset. -/
def DateTime.readUniversal? (text : String) : Option DateTime := do
  let ((year, month, day), rest) ← readLooseDate? text.toList
  let rest ← match rest with
    | c :: rest => if c = 'T' ∨ c = 't' ∨ c = ' ' then some rest else none
    | [] => none
  let (clock, rest) ← readLooseClock? rest
  let (offset, rest) ← readOffset? rest
  if (trimStart rest).isEmpty then
    DateTime.minutesBefore? ⟨← Date.of? year month day, clock⟩ offset
  else none

end SqlCompose.Calendar
