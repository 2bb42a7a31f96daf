import SqlCompose.Binary.Format

/-!
# Floating-point numbers of sixty-four bits

A number is its bit pattern. The values are decoded to exact integers and fractions, and an
operation rounds once, at its end.
-/

namespace SqlCompose

open Binary (Format)

/-- A floating-point number of sixty-four bits. -/
structure Double where
  /-- The sign bit, eleven bits of exponent and fifty-two of fraction. -/
  bits : UInt64
deriving DecidableEq, Repr

namespace Double

/-! ## Parts -/

/-- Whether the sign bit is set. -/
def isNegative (x : Double) : Bool := decide (Binary.double.signBit ≤ x.bits.toNat)

/-- The bits without the sign. -/
def unsigned (x : Double) : Nat := x.bits.toNat % Binary.double.signBit

/-- Whether the number is neither infinite nor undefined. -/
def isFinite (x : Double) : Bool := decide (x.unsigned < Binary.double.infinity)

/-- Whether the number is an infinity. -/
def isInfinite (x : Double) : Bool := x.unsigned == Binary.double.infinity

/-- Whether the number is undefined. -/
def isNaN (x : Double) : Bool := decide (Binary.double.infinity < x.unsigned)

/-- Whether the number is a zero of either sign. -/
def isZero (x : Double) : Bool := x.unsigned == 0

/-- The significand and exponent of the magnitude of a finite number. -/
def magnitude (x : Double) : Nat × Int := Binary.double.magnitude x.unsigned

/-- The magnitude of a finite number as a fraction. -/
def ratio (x : Double) : Nat × Nat :=
  let (m, q) := x.magnitude
  Format.fraction m q

/-! ## Construction -/

/-- The number with a sign and bits for the magnitude. -/
def ofParts (negative : Bool) (unsigned : Nat) : Double :=
  ⟨UInt64.ofNat (if negative then Binary.double.signBit + unsigned else unsigned)⟩

/-- Positive zero. -/
def zero : Double := ⟨0⟩

/-- The quiet number that is undefined. -/
def nan : Double := ofParts false Binary.double.quiet

/-- The number nearest to an integer. -/
def ofInt (n : Int) : Double := ofParts (decide (n < 0)) (Binary.double.ofRatio n.natAbs 1)

/-- The number nearest to `± digits · 10 ^ exponent`. -/
def ofDecimal (negative : Bool) (digits : Nat) (exponent : Int) : Double :=
  ofParts negative (Binary.double.ofDecimal digits exponent)

/-- The opposite number. -/
def neg (x : Double) : Double := ofParts (!x.isNegative) x.unsigned

/-- The product of two finite nonnegative numbers, rounded once. -/
def mulMagnitude (x y : Double) : Double :=
  let (a, b) := x.ratio
  let (c, d) := y.ratio
  ofParts false (Binary.double.ofRatio (a * c) (b * d))

/-- The quotient of two finite nonnegative numbers, rounded once; the divisor is not zero. -/
def divMagnitude (x y : Double) : Double :=
  let (a, b) := x.ratio
  let (c, d) := y.ratio
  ofParts false (Binary.double.ofRatio (a * d) (b * c))

/-! ## Integers -/

/-- The integer a number is, if it is one. -/
def toInt? (x : Double) : Option Int :=
  if x.isFinite then
    let (a, b) := x.ratio
    if a % b = 0 then some (if x.isNegative then -(a / b : Nat) else (a / b : Nat)) else none
  else none

/-! ## Thirty-two bits -/

/-- The number of sixty-four bits with the value of a pattern of thirty-two. -/
def ofSingle (bits : UInt32) : Double :=
  let f := Binary.single
  let negative := decide (f.signBit ≤ bits.toNat)
  let unsigned := bits.toNat % f.signBit
  if f.infinity < unsigned then nan
  else if unsigned = f.infinity then ofParts negative Binary.double.infinity
  else
    let (m, q) := f.magnitude unsigned
    let (a, b) := Format.fraction m q
    ofParts negative (Binary.double.ofRatio a b)

/-- The pattern of thirty-two bits nearest to a number. -/
def toSingle (x : Double) : UInt32 :=
  let f := Binary.single
  let unsigned :=
    if x.isNaN then f.quiet
    else if x.isInfinite then f.infinity
    else
      let (a, b) := x.ratio
      f.ofRatio a b
  UInt32.ofNat (if x.isNegative then f.signBit + unsigned else unsigned)

end Double

end SqlCompose
