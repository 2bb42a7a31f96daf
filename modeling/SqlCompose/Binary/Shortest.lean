import SqlCompose.Binary.Double

/-!
# The fewest digits that read back

The reals that round to a finite number form an interval around it. `shortest` looks for the
coarsest decimal grid with a point in that interval and takes the grid's nearest point to the
number. Only the two neighbours of the number on a grid have to be tested: if any point of the
grid lies in the interval, so does one of them. A number halfway between two such points is the
caller's decision.
-/

namespace SqlCompose.Binary

/-- What to do with a number halfway between two shortest candidates. -/
inductive HalfwayRule where
  /-- Take the candidate with the even last digit. -/
  | toEven
  /-- Take the larger candidate. -/
  | upward
deriving DecidableEq, Repr

/-- A positive decimal `digits · 10 ^ exponent`. -/
structure Decimal where
  /-- The significant digits, read as a number. -/
  digits : Nat
  /-- The power of ten of the last digit. -/
  exponent : Int
deriving DecidableEq, Repr

/-- Two numbers `a` and `b` with `d · 10 ^ k = a / b`. -/
def Decimal.ratio (d : Decimal) : Nat × Nat :=
  if 0 ≤ d.exponent then (d.digits * Nat.pow 10 d.exponent.toNat, 1)
  else (d.digits, Nat.pow 10 (-d.exponent).toNat)

/-- Whether a decimal lies in the interval of reals that round to the magnitude with these bits.
The ends belong to it when the significand is even. The bounds are the midpoints to the two
neighbours, in units of a quarter of the last place. -/
def Format.rounds (f : Format) (bits : Nat) (d : Decimal) : Bool :=
  let (m, q) := f.magnitude bits
  let closeBelow := m = f.hidden ∧ q ≠ f.leastExponent
  let low := if closeBelow then 4 * m - 1 else 4 * m - 2
  let high := 4 * m + 2
  let (a, b) := d.ratio
  let (u, v) := Format.fraction 1 (q - 2)
  let point := a * v
  let unit := b * u
  if m % 2 = 0 then low * unit ≤ point && point ≤ high * unit
  else low * unit < point && point < high * unit

/-- The power of ten of the first significant digit of `num / den`, both positive. -/
def leadingPower (num den : Nat) : Int :=
  let size : Int := (Nat.toDigits 10 num).length - (Nat.toDigits 10 den).length
  let (a, b) := Decimal.ratio ⟨1, size⟩
  if num * b < den * a then size - 1 else size

/-- The nearest of a magnitude's two neighbours on the grid of step `10 ^ k` among those that
round to it. -/
def Format.onGrid (f : Format) (rule : HalfwayRule) (bits : Nat) (k : Int) : Option Decimal :=
  let (m, q) := f.magnitude bits
  let (num, den) := Format.fraction m q
  let (a, b) := Decimal.ratio ⟨1, k⟩
  let below := num * b / (den * a)
  let rest := num * b % (den * a)
  let lower : Decimal := ⟨below, k⟩
  let upper : Decimal := ⟨below + 1, k⟩
  let lowerFits := below ≠ 0 && f.rounds bits lower
  let upperFits := f.rounds bits upper
  match lowerFits, upperFits with
  | true, false => some lower
  | false, true => some upper
  | false, false => none
  | true, true =>
    if 2 * rest < den * a then some lower
    else if den * a < 2 * rest then some upper
    else match rule with
      | .toEven => if below % 2 = 0 then some lower else some upper
      | .upward => some upper

/-- The first grid, from the coarsest on, that has a point rounding to a magnitude. Seventeen
digits always suffice for sixty-four bits. -/
def Format.search (f : Format) (rule : HalfwayRule) (bits : Nat) (leading : Int) :
    Nat → Nat → Decimal
  | 0, _ => ⟨0, 0⟩
  | fuel + 1, count =>
    match f.onGrid rule bits (leading - count) with
    | some d => d
    | none => f.search rule bits leading fuel (count + 1)

/-- A decimal without zeros at its end. -/
def Decimal.strip (d : Decimal) : Nat → Decimal
  | 0 => d
  | fuel + 1 =>
    if d.digits ≠ 0 ∧ d.digits % 10 = 0 then
      Decimal.strip ⟨d.digits / 10, d.exponent + 1⟩ fuel
    else d

/-- The shortest decimal that rounds to a positive finite magnitude. -/
def Format.shortest (f : Format) (rule : HalfwayRule) (bits : Nat) : Decimal :=
  let (m, q) := f.magnitude bits
  let (num, den) := Format.fraction m q
  (f.search rule bits (leadingPower num den) 18 0).strip 20

end SqlCompose.Binary
