/-!
# Letters and digits of the ASCII range

Case folding and digit tests that leave every character above 127 alone, and the decimal and
hexadecimal numerals written with ASCII digits.
-/

namespace SqlCompose.Text

/-! ## Case -/

/-- A text with the letters `A` to `Z` in lower case. -/
def asciiLower (text : String) : String := text.map Char.toLower

/-- A text with the letters `a` to `z` in upper case. -/
def asciiUpper (text : String) : String := text.map Char.toUpper

/-- Equality up to the case of ASCII letters. -/
def equalIgnoringCase (s t : String) : Bool := asciiLower s == asciiLower t

/-- The comparison that ignores case, as an equality of the lowered characters. -/
theorem equalIgnoringCase_eq (s t : String) :
    equalIgnoringCase s t = (s.toList.map Char.toLower == t.toList.map Char.toLower) := by
  rw [Bool.eq_iff_iff, equalIgnoringCase, asciiLower, asciiLower, beq_iff_eq, beq_iff_eq,
    ← String.toList_inj, String.toList_map, String.toList_map]

/-! ## Digits -/

/-- The value of a decimal digit. -/
def digit? (c : Char) : Option Nat :=
  if '0' ≤ c ∧ c ≤ '9' then some (c.toNat - '0'.toNat) else none

/-- Whether a character is a decimal digit. -/
def isDigit (c : Char) : Bool := decide ('0' ≤ c ∧ c ≤ '9')

/-- Whether a character is a letter of the ASCII range. -/
def isAsciiLetter (c : Char) : Bool :=
  decide (('a' ≤ c ∧ c ≤ 'z') ∨ ('A' ≤ c ∧ c ≤ 'Z'))

/-- The value of a hexadecimal digit, in either case. -/
def hexDigit? (c : Char) : Option Nat :=
  if '0' ≤ c ∧ c ≤ '9' then some (c.toNat - '0'.toNat)
  else if 'a' ≤ c ∧ c ≤ 'f' then some (c.toNat - 'a'.toNat + 10)
  else if 'A' ≤ c ∧ c ≤ 'F' then some (c.toNat - 'A'.toNat + 10)
  else none

/-- The number a list of decimal digits spells, continuing the number read so far; characters
that are no digits count as zero and are not expected. -/
def foldDigits (soFar : Nat) (digits : List Char) : Nat :=
  digits.foldl (fun n c => n * 10 + (digit? c).getD 0) soFar

/-- The number a list of decimal digits spells. -/
def ofDigits (digits : List Char) : Nat := foldDigits 0 digits

/-- The decimal numeral of a number. -/
def decimal (n : Nat) : List Char := Nat.toDigits 10 n

/-- The decimal numeral of a number, padded with zeros on the left to a width. -/
def decimalPadded (width n : Nat) : List Char :=
  let digits := decimal n
  List.replicate (width - digits.length) '0' ++ digits

/-- The decimal numeral of an integer, with a minus sign if it is negative. -/
def signedDecimal (n : Int) : List Char :=
  if n < 0 then '-' :: decimal n.natAbs else decimal n.natAbs

/-- The integer that an optional sign and a nonempty run of decimal digits spell. -/
def readInt? (text : List Char) : Option Int :=
  match text with
  | '-' :: digits =>
    if digits.isEmpty || !digits.all isDigit then none else some (-(ofDigits digits : Int))
  | '+' :: digits =>
    if digits.isEmpty || !digits.all isDigit then none else some (ofDigits digits)
  | digits =>
    if digits.isEmpty || !digits.all isDigit then none else some (ofDigits digits)

/-- The number that an optional plus sign and a nonempty run of decimal digits spell. -/
def readNat? (text : List Char) : Option Nat :=
  match text with
  | '+' :: digits => if digits.isEmpty || !digits.all isDigit then none else some (ofDigits digits)
  | digits => if digits.isEmpty || !digits.all isDigit then none else some (ofDigits digits)

/-- The lower-case hexadecimal numeral of a number, padded with zeros on the left. -/
def hexPadded (width n : Nat) : List Char :=
  let digits := Nat.toDigits 16 n
  List.replicate (width - digits.length) '0' ++ digits

end SqlCompose.Text
