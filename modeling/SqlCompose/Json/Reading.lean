import SqlCompose.Json.Basic
import SqlCompose.Text.Ascii

/-!
# Reading JSON text

The grammar is that of the JSON standard, with arrays and objects nested at most 127 deep. An
integer without fraction and exponent stays an integer if a word of sixty-four bits holds it, a
zero with a minus sign apart. Every other number becomes a floating-point number in two steps:
the leading digits that fit a word are rounded, and the result is multiplied or divided by a power
of ten and rounded again. A number beyond the finite ones is refused.

The limit and the two steps are those of release 1 of `serde_json` with its standard options.
-/

namespace SqlCompose.Json

open Text (isDigit digit? hexDigit?)

/-! ## Blanks -/

/-- Whether a character may stand between the tokens of JSON text. -/
def isSpace (c : Char) : Bool := c == ' ' || c == '\n' || c == '\t' || c == '\r'

/-- A text without the blanks at its start. -/
def skipSpace (text : List Char) : List Char := text.dropWhile isSpace

/-! ## Numbers -/

/-- Append digits to a significand as long as a word of sixty-four bits holds it; also gives the
number of digits taken. After the first digit that does not fit none is taken. -/
def extendSignificand (significand taken : Nat) : List Char → Nat × Nat
  | [] => (significand, taken)
  | c :: rest =>
    let next := significand * 10 + (digit? c).getD 0
    if next < 0x10000000000000000 then extendSignificand next (taken + 1) rest
    else (significand, taken)

/-- A nonnegative number times a power of ten. A power beyond 308 is applied in steps of 308, and
only downwards; an overflow is refused. -/
def scale? : Nat → Double → Int → Option Double
  | 0, x, _ => some x
  | fuel + 1, x, exponent =>
    if exponent.natAbs ≤ 308 then
      let power := Double.ofDecimal false 1 exponent.natAbs
      if 0 ≤ exponent then
        let product := x.mulMagnitude power
        if product.isInfinite then none else some product
      else some (x.divMagnitude power)
    else if x.isZero then some x
    else if 0 ≤ exponent then none
    else scale? fuel (x.divMagnitude (Double.ofDecimal false 1 308)) (exponent + 308)

/-- The floating-point number with a sign, a significand and a power of ten. -/
def float? (negative : Bool) (significand : Nat) (exponent : Int) : Option Json := do
  let x ← scale? 5 (Double.ofInt significand) exponent
  some (ofDouble (if negative then x.neg else x))

/-- A signed run of digits after an exponent mark, and the text after it. -/
def readExponent? (text : List Char) : Option (Int × List Char) :=
  let (negative, rest) :=
    match text with
    | '+' :: rest => (false, rest)
    | '-' :: rest => (true, rest)
    | rest => (false, rest)
  let digits := rest.takeWhile isDigit
  if digits.isEmpty then none
  else
    let n : Int := Text.ofDigits digits
    some (if negative then -n else n, rest.drop digits.length)

/-- The end of a number: an optional exponent, added to the exponent known so far. -/
def finishNumber? (negative : Bool) (significand : Nat) (exponent : Int) (text : List Char) :
    Option (Json × List Char) :=
  match text with
  | c :: rest =>
    if c = 'e' ∨ c = 'E' then do
      let (shift, rest) ← readExponent? rest
      some (← float? negative significand (exponent + shift), rest)
    else do some (← float? negative significand exponent, text)
  | [] => do some (← float? negative significand exponent, [])

/-- A number without a sign, and the text after it. -/
def readMagnitude? (negative : Bool) (text : List Char) : Option (Json × List Char) := do
  let digits := text.takeWhile isDigit
  let rest := text.drop digits.length
  if digits.isEmpty || (digits.head? == some '0' && 1 < digits.length) then none
  let (significand, taken) := extendSignificand 0 0 digits
  let dropped := digits.length - taken
  match rest with
  | '.' :: rest =>
    let places := rest.takeWhile isDigit
    if places.isEmpty then none
    let (significand, used) := extendSignificand significand 0 places
    finishNumber? negative significand (dropped - used) (rest.drop places.length)
  | c :: _ =>
    if c = 'e' ∨ c = 'E' then finishNumber? negative significand dropped rest
    else readInteger negative significand dropped rest
  | [] => readInteger negative significand dropped rest
where
  /-- A number without fraction and exponent. -/
  readInteger (negative : Bool) (significand dropped : Nat) (rest : List Char) :
      Option (Json × List Char) :=
    if 0 < dropped then finishNumber? negative significand dropped rest
    else if negative then
      if 0 < significand ∧ significand ≤ 0x8000000000000000 then some (ofInt (-significand), rest)
      else finishNumber? negative significand 0 rest
    else some (ofInt significand, rest)

/-- A number and the text after it. -/
def readNumber? (text : List Char) : Option (Json × List Char) :=
  match text with
  | '-' :: rest => readMagnitude? true rest
  | rest => readMagnitude? false rest

/-! ## Strings -/

/-- The number that four hexadecimal digits spell. -/
def hex4? (a b c d : Char) : Option Nat := do
  some (((← hexDigit? a) * 16 + (← hexDigit? b)) * 256 + (← hexDigit? c) * 16 + (← hexDigit? d))

/-- The character after a backslash that stands for one character. -/
def unescape? (c : Char) : Option Char :=
  if c = '"' ∨ c = '\\' ∨ c = '/' then some c
  else if c = 'b' then some '\x08'
  else if c = 'f' then some '\x0c'
  else if c = 'n' then some '\n'
  else if c = 'r' then some '\r'
  else if c = 't' then some '\t'
  else none

/-- The characters of a string up to its closing quotation mark, and the text after it. A
character beyond the first plane is written as two escapes; half of such a pair is refused. -/
def readString? : List Char → Option (List Char × List Char)
  | [] => none
  | '"' :: rest => some ([], rest)
  | '\\' :: 'u' :: a :: b :: c :: d :: rest => do
    let unit ← hex4? a b c d
    if 0xD800 ≤ unit ∧ unit < 0xDC00 then
      match rest with
      | '\\' :: 'u' :: e :: f :: g :: h :: rest =>
        let low ← hex4? e f g h
        if low < 0xDC00 ∨ 0xE000 ≤ low then none
        let (chars, rest) ← readString? rest
        some (Char.ofNat (0x10000 + (unit - 0xD800) * 0x400 + (low - 0xDC00)) :: chars, rest)
      | _ => none
    else if 0xDC00 ≤ unit ∧ unit < 0xE000 then none
    else
      let (chars, rest) ← readString? rest
      some (Char.ofNat unit :: chars, rest)
  | '\\' :: c :: rest => do
    let c ← unescape? c
    let (chars, rest) ← readString? rest
    some (c :: chars, rest)
  | c :: rest => do
    if c.toNat < 32 ∨ c = '\\' then none
    let (chars, rest) ← readString? rest
    some (c :: chars, rest)

/-! ## Values -/

/-- The text after a word that has to come next. -/
def readWord? (word : String) (text : List Char) : Option (List Char) :=
  if word.toList.isPrefixOf text then some (text.drop word.length) else none

mutual

/-- A value and the text after it. The first argument bounds the steps, the second the nesting. -/
def readValue? : Nat → Nat → List Char → Option (Json × List Char)
  | 0, _, _ => none
  | fuel + 1, depth, text =>
    match skipSpace text with
    | [] => none
    | '"' :: rest => do
      let (chars, rest) ← readString? rest
      some (.string (String.ofList chars), rest)
    | '[' :: rest => do
      if depth ≤ 1 then none
      match skipSpace rest with
      | ']' :: rest => some (.array [], rest)
      | rest =>
        let (items, rest) ← readItems? fuel (depth - 1) rest
        some (.array items, rest)
    | '{' :: rest => do
      if depth ≤ 1 then none
      match skipSpace rest with
      | '}' :: rest => some (.object [], rest)
      | rest =>
        let (members, rest) ← readMembers? fuel (depth - 1) rest
        some (ofMembers members, rest)
    | 'n' :: rest => do some (.null, ← readWord? "ull" rest)
    | 't' :: rest => do some (.bool true, ← readWord? "rue" rest)
    | 'f' :: rest => do some (.bool false, ← readWord? "alse" rest)
    | rest => readNumber? rest

/-- The items of an array up to its closing bracket, and the text after it. -/
def readItems? : Nat → Nat → List Char → Option (List Json × List Char)
  | 0, _, _ => none
  | fuel + 1, depth, text => do
    let (item, rest) ← readValue? fuel depth text
    match skipSpace rest with
    | ',' :: rest =>
      let (items, rest) ← readItems? fuel depth rest
      some (item :: items, rest)
    | ']' :: rest => some ([item], rest)
    | _ => none

/-- The members of an object up to its closing brace, and the text after it. -/
def readMembers? : Nat → Nat → List Char → Option (List (String × Json) × List Char)
  | 0, _, _ => none
  | fuel + 1, depth, text => do
    match skipSpace text with
    | '"' :: rest =>
      let (name, rest) ← readString? rest
      match skipSpace rest with
      | ':' :: rest =>
        let (value, rest) ← readValue? fuel depth rest
        match skipSpace rest with
        | ',' :: rest =>
          let (members, rest) ← readMembers? fuel depth rest
          some ((String.ofList name, value) :: members, rest)
        | '}' :: rest => some ([(String.ofList name, value)], rest)
        | _ => none
      | _ => none
    | _ => none

end

/-- The value of a text that holds one value and blanks around it. -/
def read? (text : String) : Option Json := do
  let chars := text.toList
  let (json, rest) ← readValue? (2 * chars.length + 2) 128 chars
  if (skipSpace rest).isEmpty then some json else none

end SqlCompose.Json
