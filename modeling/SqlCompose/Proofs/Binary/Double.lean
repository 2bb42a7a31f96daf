import SqlCompose.Binary.Double
import SqlCompose.Proofs.Binary.Exact

/-!
# Values of floating-point numbers

The value of a finite number, and what is exact about it: the integer that a number is, and the
number of sixty-four bits that has the value of one of thirty-two.
-/

namespace SqlCompose

open Binary (Format)

namespace Binary

/-! ## The two formats -/

/-- The hidden bit of the double format is `2 ^ 52`. -/
theorem double_hidden : double.hidden = 4503599627370496 := rfl

/-- The first double above the finite ones has all exponent bits set. -/
theorem double_infinity : double.infinity = 2047 * 4503599627370496 := rfl

/-- The unit of the subnormal doubles is `2 ^ -1074`. -/
theorem double_leastExponent : double.leastExponent = -1074 := rfl

/-- The sign bit of the double format is `2 ^ 63`. -/
theorem double_signBit : double.signBit = 9223372036854775808 := rfl

/-- The hidden bit of the single format is `2 ^ 23`. -/
theorem single_hidden : single.hidden = 8388608 := rfl

/-- The first single above the finite ones has all exponent bits set. -/
theorem single_infinity : single.infinity = 255 * 8388608 := rfl

/-- The unit of the subnormal singles is `2 ^ -149`. -/
theorem single_leastExponent : single.leastExponent = -149 := rfl

/-- The sign bit of the single format is `2 ^ 31`. -/
theorem single_signBit : single.signBit = 2147483648 := rfl

/-- Every finite value of thirty-two bits is one of sixty-four bits. -/
theorem exists_double_of_single {bits : Nat} (h : bits < single.infinity) :
    ∃ wide < double.infinity, double.value wide = single.value bits := by
  by_cases hzero : bits = 0
  · exact ⟨0, by decide,
      (double.value_eq_zero.mpr rfl).trans (single.value_eq_zero.mpr hzero).symm⟩
  obtain ⟨m, q, hmq⟩ : ∃ m q, single.magnitude bits = (m, q) := ⟨_, _, rfl⟩
  have hcanonical := single.isCanonical_magnitude bits
  have hpack := single.pack_magnitude bits
  simp only [hmq, Format.IsCanonical, single_leastExponent, single_hidden] at hcanonical
  simp only [hmq, Format.pack, single_leastExponent, single_hidden] at hpack
  rw [single_infinity] at h
  have hm : m ≠ 0 := by omega
  have hwidth : m.log2 < 24 := (Nat.log2_lt hm).mpr (by omega)
  obtain ⟨k, hk⟩ : ∃ k, m.log2 + k = 52 := ⟨52 - m.log2, by omega⟩
  have hlow : 4503599627370496 ≤ m * 2 ^ k :=
    calc 4503599627370496 = 2 ^ m.log2 * 2 ^ k := by rw [← Nat.pow_add, hk]
      _ ≤ m * 2 ^ k := Nat.mul_le_mul_right _ (Nat.log2_self_le hm)
  have hhigh : m * 2 ^ k < 2 * 4503599627370496 :=
    calc m * 2 ^ k < 2 ^ (m.log2 + 1) * 2 ^ k :=
          Nat.mul_lt_mul_of_pos_right Nat.lt_log2_self (Nat.two_pow_pos k)
      _ = 2 * 4503599627370496 := by
          rw [← Nat.pow_add, show m.log2 + 1 + k = 53 by omega]
  have hwide : double.IsCanonical (m * 2 ^ k) (q - k) := by
    rw [Format.IsCanonical, double_leastExponent, double_hidden]
    omega
  refine ⟨double.pack (m * 2 ^ k) (q - k), ?_, ?_⟩
  · rw [Format.pack, double_infinity, double_leastExponent, double_hidden]
    omega
  · rw [Format.value_pack _ hwide, Format.value, hmq, zpow_sub₀ two_ne_zero, zpow_natCast]
    push_cast
    field_simp

end Binary

namespace Double

/-- The value of a finite number. -/
def value (x : Double) : ℚ :=
  (if x.isNegative then -1 else 1) * Binary.double.value x.unsigned

/-- The denominator of the ratio that stands for a double is never zero. -/
theorem ratio_pos (x : Double) : 0 < x.ratio.2 := Format.fraction_pos _ _

/-- The ratio of a double, read as a rational, is the magnitude of its unsigned bits. -/
theorem cast_ratio (x : Double) :
    (x.ratio.1 : ℚ) / x.ratio.2 = Binary.double.value x.unsigned := Format.cast_fraction _ _

/-! ## Integers -/

/-- A number is an integer if it is finite and has the value of the integer. -/
theorem toInt?_eq_some {x : Double} {n : Int} :
    x.toInt? = some n ↔ x.isFinite = true ∧ x.value = n := by
  obtain ⟨a, b, hab⟩ : ∃ a b, x.ratio = (a, b) := ⟨_, _, rfl⟩
  have hpos := x.ratio_pos
  have hratio := x.cast_ratio
  rw [hab] at hpos hratio
  dsimp only at hpos hratio
  have hb : (b : ℚ) ≠ 0 := by exact_mod_cast hpos.ne'
  unfold toInt? value
  rw [← hratio, hab]
  generalize x.isNegative = negative
  cases x.isFinite with
  | false => simp
  | true =>
    simp only [if_true, true_and]
    constructor
    · intro h
      split at h
      case isFalse => cases h
      case isTrue hdvd =>
        obtain ⟨c, rfl⟩ := Nat.dvd_of_mod_eq_zero hdvd
        rw [Nat.mul_div_cancel_left c hpos] at h
        rw [Nat.cast_mul, mul_div_cancel_left₀ _ hb, ← Option.some.inj h]
        cases negative <;> simp
    · intro h
      have hint : (a : ℤ) = (if negative then -n else n) * b := by
        have hcast : (a : ℚ) = ((if negative then -n else n : ℤ) : ℚ) * b := by
          rw [← div_eq_iff hb]
          cases negative
          · simpa using h
          · simpa [neg_eq_iff_eq_neg] using h
        exact_mod_cast hcast
      have hsign : 0 ≤ if negative then -n else n := by
        by_contra hneg
        have := mul_neg_of_neg_of_pos (not_le.mp hneg) (Int.natCast_pos.mpr hpos)
        omega
      obtain ⟨c, hc⟩ := Int.eq_ofNat_of_zero_le hsign
      rw [hc] at hint
      obtain rfl : a = c * b := by exact_mod_cast hint
      rw [if_pos (Nat.mul_mod_left c b), Nat.mul_div_cancel _ hpos, ← hc]
      cases negative <;> simp

/-! ## Parts -/

/-- The bits of a double put together from a sign and a magnitude are those two side by side. -/
theorem toNat_ofParts {negative : Bool} {unsigned : Nat}
    (h : unsigned < Binary.double.signBit) :
    (ofParts negative unsigned).bits.toNat =
      if negative then Binary.double.signBit + unsigned else unsigned := by
  rw [Binary.double_signBit] at h ⊢
  rw [ofParts, UInt64.toNat_ofNat', Binary.double_signBit]
  split <;> omega

/-- The magnitude a double was put together from is the one read off it. -/
theorem unsigned_ofParts (negative : Bool) {unsigned : Nat}
    (h : unsigned < Binary.double.signBit) : (ofParts negative unsigned).unsigned = unsigned := by
  rw [Double.unsigned, toNat_ofParts h]
  rw [Binary.double_signBit] at h ⊢
  split <;> omega

/-- The sign a double was put together from is the one read off it. -/
theorem isNegative_ofParts (negative : Bool) {unsigned : Nat}
    (h : unsigned < Binary.double.signBit) : (ofParts negative unsigned).isNegative = negative := by
  rw [isNegative, toNat_ofParts h]
  rw [Binary.double_signBit] at h ⊢
  cases negative
  · simp
    omega
  · simp

/-! ## Thirty-two bits -/

/-- A finite number of thirty-two bits has its value in sixty-four bits, and comes back. -/
theorem toSingle_ofSingle {bits : UInt32}
    (h : bits.toNat % Binary.single.signBit < Binary.single.infinity) :
    (ofSingle bits).toSingle = bits := by
  obtain ⟨wide, hwide, hvalue⟩ := Binary.exists_double_of_single h
  have hround : ∀ ab : Nat × Nat,
      Format.fraction (Binary.single.magnitude (bits.toNat % Binary.single.signBit)).1
        (Binary.single.magnitude (bits.toNat % Binary.single.signBit)).2 = ab →
      Binary.double.ofRatio ab.1 ab.2 = wide := by
    rintro _ rfl
    refine Format.ofRatio_eq_of_value _ (Format.fraction_pos _ _) hwide ?_
    rw [hvalue, Format.cast_fraction, Format.value]
  have hofSingle : ofSingle bits =
      ofParts (decide (Binary.single.signBit ≤ bits.toNat)) wide := by
    unfold ofSingle
    dsimp only
    rw [if_neg (by omega), if_neg (by omega), hround _ rfl]
  have hsign : wide < Binary.double.signBit := hwide.trans (by decide)
  have hback : ∀ x : Double, x.unsigned = wide → Binary.single.ofRatio x.ratio.1 x.ratio.2 =
      bits.toNat % Binary.single.signBit := by
    intro x hx
    refine Format.ofRatio_eq_of_value _ x.ratio_pos h ?_
    rw [cast_ratio, hx, hvalue]
  have hunsigned := unsigned_ofParts (decide (Binary.single.signBit ≤ bits.toNat)) hsign
  have hnegative := isNegative_ofParts (decide (Binary.single.signBit ≤ bits.toNat)) hsign
  rw [hofSingle]
  generalize ofParts (decide (Binary.single.signBit ≤ bits.toNat)) wide = x at hunsigned hnegative
  have hnan : x.isNaN = false := by
    rw [isNaN, hunsigned, decide_eq_false (by omega)]
  have hinfinite : x.isInfinite = false := by
    rw [isInfinite, hunsigned]
    exact beq_false_of_ne (by omega)
  unfold toSingle
  rw [hnan, hinfinite, hnegative]
  simp only [Bool.false_eq_true, if_false, hback x hunsigned, decide_eq_true_eq]
  apply UInt32.toNat_inj.mp
  rw [UInt32.toNat_ofNat', Binary.single_signBit]
  have hbits := bits.toNat_lt
  split <;> omega

/-- A number that comes from thirty-two bits is the same after it has been through them again. -/
theorem ofSingle_toSingle_ofSingle (bits : UInt32) :
    ofSingle (ofSingle bits).toSingle = ofSingle bits := by
  rcases Nat.lt_trichotomy (bits.toNat % Binary.single.signBit) Binary.single.infinity with
    hfinite | hinfinite | hnan
  · rw [toSingle_ofSingle hfinite]
  · have hofSingle : ofSingle bits =
        ofParts (decide (Binary.single.signBit ≤ bits.toNat)) Binary.double.infinity := by
      unfold ofSingle
      dsimp only
      rw [if_neg (by omega), if_pos hinfinite]
    rw [hofSingle]
    cases decide (Binary.single.signBit ≤ bits.toNat) <;> rfl
  · have hofSingle : ofSingle bits = nan := by
      unfold ofSingle
      dsimp only
      rw [if_pos hnan]
    rw [hofSingle]
    rfl

end Double

end SqlCompose
