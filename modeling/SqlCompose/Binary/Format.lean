/-!
# Rounding to a binary interchange format

A binary floating-point format has a number of fraction bits and a number of exponent bits. A
finite magnitude is `m · 2 ^ q`; `magnitude` reads the pair off the bits and `ofRatio` finds the
bits of the magnitude nearest to a fraction, a tie going to the even significand. Everything is
arithmetic on natural numbers, so no step rounds twice.
-/

namespace SqlCompose.Binary

/-- A binary floating-point format. -/
structure Format where
  /-- Bits of the fraction, without the implicit leading bit. -/
  fractionBits : Nat
  /-- Bits of the biased exponent. -/
  exponentBits : Nat
deriving DecidableEq, Repr

/-- The format of sixty-four bits. -/
def double : Format := ⟨52, 11⟩

/-- The format of thirty-two bits. -/
def single : Format := ⟨23, 8⟩

namespace Format

variable (f : Format)

/-- The least significand of a normal number, and the number of fractions. -/
def hidden : Nat := Nat.pow 2 f.fractionBits

/-- The exponent field of infinities and of what is not a number. -/
def topExponent : Nat := Nat.pow 2 f.exponentBits - 1

/-- The exponent `q` of the smallest magnitude `1 · 2 ^ q`. -/
def leastExponent : Int := 2 - Nat.pow 2 (f.exponentBits - 1) - f.fractionBits

/-- The bits of infinity, without the sign. -/
def infinity : Nat := f.topExponent * f.hidden

/-- The bits of the quiet value that is not a number. -/
def quiet : Nat := f.infinity + f.hidden / 2

/-- The bit that holds the sign. -/
def signBit : Nat := Nat.pow 2 (f.fractionBits + f.exponentBits)

/-- The significand and the exponent of the magnitude that bits without a sign stand for. -/
def magnitude (bits : Nat) : Nat × Int :=
  let exponent := bits / f.hidden
  let fraction := bits % f.hidden
  if exponent = 0 then (fraction, f.leastExponent)
  else (f.hidden + fraction, f.leastExponent + (exponent - 1))

/-- Two natural numbers whose quotient is `m · 2 ^ q`. -/
def fraction (m : Nat) (q : Int) : Nat × Nat :=
  if 0 ≤ q then (m * Nat.pow 2 q.toNat, 1) else (m, Nat.pow 2 (-q).toNat)

/-- The quotient of two numbers rounded to nearest, a tie going to the even neighbour. -/
def divideToEven (num den : Nat) : Nat :=
  let quotient := num / den
  let rest := 2 * (num % den)
  if rest < den then quotient
  else if den < rest then quotient + 1
  else quotient + quotient % 2

/-- The exponent `q` for which `num / den` has a significand of full width, or the least
exponent if the quotient is too small for that. -/
def exponentFor (num den : Nat) : Int :=
  let guess : Int := (Nat.log2 num : Int) - (Nat.log2 den : Int) - f.fractionBits
  let (a, b) := fraction 1 guess
  let q := if num * b < den * a * f.hidden then guess - 1 else guess
  max q f.leastExponent

/-- The bits, without a sign, of the magnitude nearest to `num / den`; too large a quotient gives
infinity. -/
def ofRatio (num den : Nat) : Nat :=
  if num = 0 then 0
  else
    let q := f.exponentFor num den
    let (a, b) := fraction 1 q
    let significand := divideToEven (num * b) (den * a)
    min ((q - f.leastExponent).toNat * f.hidden + significand) f.infinity

/-- The bits, without a sign, of the magnitude nearest to `digits · 10 ^ exponent`. Exponents far
outside the range of the format decide the answer without computing the power. -/
def ofDecimal (digits : Nat) (exponent : Int) : Nat :=
  if digits = 0 then 0
  else if exponent > Nat.pow 2 f.exponentBits then f.infinity
  else if exponent + (Nat.log2 digits : Int) < -(Nat.pow 2 f.exponentBits : Int) then 0
  else if 0 ≤ exponent then f.ofRatio (digits * Nat.pow 10 exponent.toNat) 1
  else f.ofRatio digits (Nat.pow 10 (-exponent).toNat)

end Format

end SqlCompose.Binary
