import SqlCompose.Binary.Double
import SqlCompose.Text.Ascii

/-!
# Floating-point numerals

A numeral is an optional sign and digits with an optional fraction and an optional exponent, or one
of the words for the values that are no numbers. It stands for the nearest value.
-/

namespace SqlCompose.Double

/-- The value of digits before and after a decimal mark. -/
def ofPlaces (negative : Bool) (whole places : List Char) (exponent : Int) : Double :=
  .ofDecimal negative (Text.ofDigits (whole ++ places)) (exponent - places.length)

/-- The exponent that a numeral ends with: nothing, or a mark and an integer. -/
def readExponent? : List Char → Option Int
  | [] => some 0
  | c :: rest => if c = 'e' ∨ c = 'E' then Text.readInt? rest else none

/-- The value of a numeral without a sign. -/
def readMagnitude? (negative : Bool) (text : List Char) : Option Double :=
  let word := Text.asciiLower (String.ofList text)
  if word == "inf" || word == "infinity" then
    some (.ofParts negative Binary.double.infinity)
  else if word == "nan" then some (.ofParts negative Binary.double.quiet)
  else
    let whole := text.takeWhile Text.isDigit
    let rest := text.drop whole.length
    let (places, rest) :=
      match rest with
      | '.' :: rest => (rest.takeWhile Text.isDigit, rest.dropWhile Text.isDigit)
      | rest => ([], rest)
    if whole.isEmpty && places.isEmpty then none
    else (readExponent? rest).map (ofPlaces negative whole places)

/-- The value of a numeral. -/
def read? : List Char → Option Double
  | '-' :: text => readMagnitude? true text
  | '+' :: text => readMagnitude? false text
  | text => readMagnitude? false text

end SqlCompose.Double
