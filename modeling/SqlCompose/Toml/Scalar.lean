import SqlCompose.Binary.Numeral
import SqlCompose.Calendar.Date
import SqlCompose.Text.Search
import SqlCompose.Toml.Basic

/-!
# Scalar values of a TOML document

Numbers, truth values, dates and times are words: a run of letters, digits and a few signs that is
read as a whole. Digits may be grouped by single underscores; a decimal numeral has no needless
zeros in front.
-/

namespace SqlCompose.Toml

/-! ## Numbers -/

/-- The digits of a numeral without the underscores that group them. -/
def ungroup? (isDigit : Char → Bool) (text : List Char) : Option (List Char) :=
  let groups := Text.splitOn ['_'] text
  if groups.all fun group => !group.isEmpty && group.all isDigit then some groups.flatten else none

/-- The digits of a decimal numeral without needless zeros in front. -/
def readWhole? (text : List Char) : Option (List Char) := do
  let digits ← ungroup? Text.isDigit text
  if digits.head? = some '0' ∧ 1 < digits.length then none else some digits

/-- The number that digits of a base spell. -/
def ofBase (base : Nat) (digits : List Char) : Nat :=
  digits.foldl (fun n c => n * base + (Text.hexDigit? c).getD 0) 0

/-- The number that a grouped numeral of a base spells. -/
def readBase? (base : Nat) (text : List Char) : Option Nat := do
  let digits ← ungroup? (fun c => (Text.hexDigit? c).any (· < base)) text
  some (ofBase base digits)

/-- A sign in front of a text, true for a minus, and the text after it. -/
def splitSign : List Char → Bool × List Char
  | '-' :: rest => (true, rest)
  | '+' :: rest => (false, rest)
  | rest => (false, rest)

/-- An integer of 64 bits. -/
def inRange? (n : Int) : Option Int := 
  if -0x8000000000000000 ≤ n ∧ n < 0x8000000000000000 then some n else none

/-- The integer that a word spells. -/
def readInteger? (word : List Char) : Option Int :=
  match word with
  | '0' :: 'x' :: rest => (readBase? 16 rest).bind fun n => inRange? n
  | '0' :: 'o' :: rest => (readBase? 8 rest).bind fun n => inRange? n
  | '0' :: 'b' :: rest => (readBase? 2 rest).bind fun n => inRange? n
  | _ => do
    let (negative, rest) := splitSign word
    let n := Text.ofDigits (← readWhole? rest)
    inRange? (if negative then -n else n)

/-- The exponent that follows its mark. -/
def readExponent? (text : List Char) : Option Int := do
  let (negative, rest) := splitSign text
  let n := Text.ofDigits (← ungroup? Text.isDigit rest)
  some (if negative then -n else n)

/-- Whether a character marks an exponent. -/
def isExponentMark (c : Char) : Bool := c == 'e' || c == 'E'

/-- The places and the exponent after the whole part of a floating-point numeral; at least one of
them is there. -/
def readPlaces? (text : List Char) : Option (List Char × Int) :=
  match text with
  | '.' :: rest => do
    let places ← ungroup? Text.isDigit (rest.takeWhile (!isExponentMark ·))
    match rest.dropWhile (!isExponentMark ·) with
    | [] => some (places, 0)
    | _ :: exponent => some (places, ← readExponent? exponent)
  | _ :: exponent => do some ([], ← readExponent? exponent)
  | [] => none

/-- The floating-point number that a word spells; a number that is too large is refused. -/
def readFloat? (word : List Char) : Option Double := do
  let (negative, rest) := splitSign word
  if rest = ['i', 'n', 'f'] then some (.ofParts negative Binary.double.infinity)
  else if rest = ['n', 'a', 'n'] then some (.ofParts negative Binary.double.quiet)
  else
    let isWhole (c : Char) : Bool := !(c == '.' || isExponentMark c)
    let whole ← readWhole? (rest.takeWhile isWhole)
    let (places, exponent) ← readPlaces? (rest.dropWhile isWhole)
    let x := Double.ofPlaces negative whole places exponent
    if x.isInfinite && !negative then none else some x

/-! ## Dates and times -/

/-- A number of a fixed count of digits, and the text after it. -/
def readDigits? (count : Nat) (text : List Char) : Option (Nat × List Char) :=
  let digits := text.take count
  if digits.length = count ∧ digits.all Text.isDigit then
    some (Text.ofDigits digits, text.drop count)
  else none

/-- The text after a character that has to come next. -/
def readMark? (mark : Char) : List Char → Option (List Char)
  | c :: rest => if c = mark then some rest else none
  | [] => none

/-- The text after a date. -/
def passDate? (text : List Char) : Option (List Char) := do
  let (year, rest) ← readDigits? 4 text
  let (month, rest) ← readDigits? 2 (← readMark? '-' rest)
  let (day, rest) ← readDigits? 2 (← readMark? '-' rest)
  if 1 ≤ month ∧ month ≤ 12 ∧ 1 ≤ day ∧ day ≤ Calendar.daysInMonth year month then some rest
  else none

/-- The text after an hour and a minute. -/
def passHourMinute? (text : List Char) : Option (List Char) := do
  let (hour, rest) ← readDigits? 2 text
  let (minute, rest) ← readDigits? 2 (← readMark? ':' rest)
  if hour < 24 ∧ minute < 60 then some rest else none

/-- The text after a time of day. -/
def passTime? (text : List Char) : Option (List Char) := do
  let (second, rest) ← readDigits? 2 (← readMark? ':' (← passHourMinute? text))
  if 60 < second then none
  match rest with
  | '.' :: rest =>
    if (rest.takeWhile Text.isDigit).isEmpty then none else some (rest.dropWhile Text.isDigit)
  | _ => some rest

/-- Whether a text is nothing or a distance from universal time. -/
def isOffset : List Char → Bool
  | [] | ['Z'] | ['z'] => true
  | c :: rest => (c == '+' || c == '-') && passHourMinute? rest == some []

/-- Whether a word is a date, a time of day, or both with or without an offset. -/
def isMoment (word : List Char) : Bool :=
  passTime? word == some [] ||
    match passDate? word with
    | none => false
    | some [] => true
    | some (c :: rest) =>
      (c == 'T' || c == 't' || c == ' ') && ((passTime? rest).any isOffset)

/-! ## Words -/

/-- Whether a character belongs to a word. -/
def isWordChar (c : Char) : Bool :=
  Text.isAsciiLetter c || Text.isDigit c || c == '_' || c == '-' || c == '+' || c == '.' || c == ':'

/-- The value of a word. -/
def ofWord? (word : List Char) : Option Toml :=
  if word = "true".toList then some (.boolean true)
  else if word = "false".toList then some (.boolean false)
  else
    match readInteger? word, readFloat? word with
    | some n, _ => some (.integer n)
    | none, some x => some (.float x)
    | none, none => if isMoment word then some (.moment (String.ofList word)) else none

/-- A word at the start of a text, and the text after it; a blank may part a date from the time of
day. -/
def splitWord (text : List Char) : List Char × List Char :=
  let word := text.takeWhile isWordChar
  match passDate? word, text.dropWhile isWordChar with
  | some [], ' ' :: c :: rest =>
    if Text.isDigit c then
      (word ++ ' ' :: (c :: rest).takeWhile isWordChar, (c :: rest).dropWhile isWordChar)
    else (word, ' ' :: c :: rest)
  | _, rest => (word, rest)

/-- A value that is a word, and the text after it. -/
def readWord? (text : List Char) : Option (Toml × List Char) := do
  let (word, rest) := splitWord text
  some (← ofWord? word, rest)

end SqlCompose.Toml
