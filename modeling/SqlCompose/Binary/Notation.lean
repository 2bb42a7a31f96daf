import SqlCompose.Binary.Shortest
import SqlCompose.Text.Ascii

/-!
# Written forms of floating-point numbers

A written form is the shortest digits laid out by a few decisions, which a `Layout` records: which
powers of ten are written positionally, whether an integral value keeps a fraction, and how the
exponent is marked.
-/

namespace SqlCompose.Binary

/-- The decisions behind one written form of a number. -/
structure Layout where
  /-- The least power of ten of the first digit that is written positionally, if there is one. -/
  leastPositional : Option Int
  /-- The greatest such power, if there is one. -/
  greatestPositional : Option Int
  /-- Whether an integral value written positionally ends in `.0`. -/
  keepsFraction : Bool
  /-- What stands before an exponent that is not negative. -/
  exponentPlus : String
  /-- Which candidate a number halfway between two takes. -/
  halfway : HalfwayRule
  /-- How a zero is written. -/
  zero : String

/-- JSON numbers are positional from `0.00001` up to sixteen digits, always show a fraction, and
mark an exponent's sign. -/
def Layout.json : Layout := ⟨some (-5), some 15, true, "+", .toEven, "0.0"⟩

/-- Plain text is positional whatever the exponent, and an integral value has no fraction. -/
def Layout.plain : Layout := ⟨none, none, false, "", .upward, "0"⟩

/-- Diagnostic text is positional from `0.0001` up to sixteen digits, and shows a fraction. -/
def Layout.diagnostic : Layout := ⟨some (-4), some 15, true, "", .upward, "0.0"⟩

/-- Whether a power of ten of the first digit is written positionally. -/
def Layout.isPositional (layout : Layout) (power : Int) : Bool :=
  (layout.leastPositional.all fun least => decide (least ≤ power)) &&
    (layout.greatestPositional.all fun greatest => decide (power ≤ greatest))

/-- The digits with the decimal point where the exponent puts it. -/
def Layout.positional (layout : Layout) (digits : List Char) (exponent : Int) : List Char :=
  if 0 ≤ exponent then
    digits ++ List.replicate exponent.toNat '0' ++
      (if layout.keepsFraction then ['.', '0'] else [])
  else
    let places := (-exponent).toNat
    if places < digits.length then
      digits.take (digits.length - places) ++ '.' :: digits.drop (digits.length - places)
    else
      '0' :: '.' :: List.replicate (places - digits.length) '0' ++ digits

/-- The digits with a point after the first and the exponent behind. -/
def Layout.scientific (layout : Layout) (digits : List Char) (power : Int) : List Char :=
  let fraction := digits.drop 1
  digits.take 1 ++ (if fraction.isEmpty then [] else '.' :: fraction) ++ ['e'] ++
    (if power < 0 then [] else layout.exponentPlus.toList) ++ Text.signedDecimal power

/-- A positive finite magnitude in writing. -/
def Layout.magnitude (layout : Layout) (bits : Nat) : List Char :=
  let d := double.shortest layout.halfway bits
  let digits := Text.decimal d.digits
  let power := d.exponent + digits.length - 1
  if layout.isPositional power then layout.positional digits d.exponent
  else layout.scientific digits power

end SqlCompose.Binary

namespace SqlCompose.Double

open Binary (Layout)

/-- A number in writing; infinities and the undefined number have names. -/
def write (layout : Layout) (x : Double) : String :=
  if x.isNaN then "NaN"
  else
    let sign := if x.isNegative then "-" else ""
    if x.isInfinite then sign ++ "inf"
    else if x.isZero then sign ++ layout.zero
    else sign ++ String.ofList (layout.magnitude x.unsigned)

end SqlCompose.Double
