import Mathlib.Algebra.Order.Field.Power
import Mathlib.Data.Rat.Cast.Order
import Mathlib.Tactic.FieldSimp
import Mathlib.Tactic.Linarith
import Mathlib.Tactic.Positivity
import Mathlib.Tactic.Ring
import SqlCompose.Binary.Format

/-!
# Magnitudes that a format holds

The value of the bits of a magnitude, as a rational number. A quotient with the value of finite bits
is rounded to those bits (`ofRatio_eq_of_value`), because the search for the exponent finds the one
that the bits have and the division then leaves no rest.
-/

namespace SqlCompose.Binary.Format

variable (f : Format)

/-- The value of a magnitude. -/
def value (bits : Nat) : ℚ := (f.magnitude bits).1 * 2 ^ (f.magnitude bits).2

/-! ## Significands and exponents -/

/-- Whether a significand and an exponent are those of bits: the significand has its full width, or
the exponent is the least one. -/
def IsCanonical (m : Nat) (q : Int) : Prop :=
  f.leastExponent ≤ q ∧ m < 2 * f.hidden ∧ (f.hidden ≤ m ∨ q = f.leastExponent)

/-- The bits of a significand and an exponent. -/
def pack (m : Nat) (q : Int) : Nat := (q - f.leastExponent).toNat * f.hidden + m

theorem hidden_pos : 0 < f.hidden := Nat.two_pow_pos _

/-- The significand and exponent read off some bits are in canonical form. -/
theorem isCanonical_magnitude (bits : Nat) :
    f.IsCanonical (f.magnitude bits).1 (f.magnitude bits).2 := by
  have hfraction : bits % f.hidden < f.hidden := Nat.mod_lt _ f.hidden_pos
  unfold IsCanonical magnitude
  generalize bits % f.hidden = fraction at hfraction ⊢
  generalize bits / f.hidden = exponent
  dsimp only
  split <;> dsimp only <;> omega

/-- Packing what was read off some bits gives the bits again. -/
theorem pack_magnitude (bits : Nat) :
    f.pack (f.magnitude bits).1 (f.magnitude bits).2 = bits := by
  have hdivide := Nat.div_add_mod bits f.hidden
  unfold pack magnitude
  generalize bits % f.hidden = fraction at hdivide ⊢
  generalize bits / f.hidden = exponent at hdivide ⊢
  cases exponent with
  | zero =>
    rw [if_pos rfl, Int.sub_self, Int.toNat_zero]
    omega
  | succ n =>
    have hshift : (f.leastExponent + (((n + 1 : Nat) : Int) - 1) - f.leastExponent).toNat = n := by
      omega
    rw [if_neg (Nat.succ_ne_zero n), hshift, ← hdivide, Nat.mul_succ, Nat.mul_comm]
    omega

/-- Reading off packed bits gives the canonical pair that was packed. -/
theorem magnitude_pack {m : Nat} {q : Int} (h : f.IsCanonical m q) :
    f.magnitude (f.pack m q) = (m, q) := by
  obtain ⟨hleast, hwidth, hfull⟩ := h
  obtain ⟨n, hn⟩ := Int.eq_ofNat_of_zero_le (show 0 ≤ q - f.leastExponent by omega)
  obtain rfl : q = f.leastExponent + n := by omega
  have hpos := f.hidden_pos
  unfold pack magnitude
  rw [hn, Int.toNat_natCast]
  by_cases hm : f.hidden ≤ m
  · obtain ⟨fraction, rfl⟩ := Nat.exists_eq_add_of_le hm
    have hsplit : n * f.hidden + (f.hidden + fraction) = fraction + f.hidden * (n + 1) := by ring
    rw [hsplit, Nat.add_mul_div_left _ _ hpos, Nat.add_mul_mod_self_left,
      Nat.div_eq_of_lt (by omega), Nat.mod_eq_of_lt (by omega), if_neg (by omega)]
    ext
    · rfl
    · dsimp only
      omega
  · obtain rfl : n = 0 := by omega
    rw [Nat.zero_mul, Nat.zero_add, Nat.div_eq_of_lt (by omega), Nat.mod_eq_of_lt (by omega),
      if_pos rfl]
    simp

/-- Packed bits have the value of the significand scaled by the exponent. -/
theorem value_pack {m : Nat} {q : Int} (h : f.IsCanonical m q) :
    f.value (f.pack m q) = m * 2 ^ q := by
  rw [value, magnitude_pack f h]

/-! ## Fractions -/

/-- The denominator of a scaled significand is never zero. -/
theorem fraction_pos (m : Nat) (q : Int) : 0 < (fraction m q).2 := by
  unfold fraction
  split
  · exact Nat.one_pos
  · exact Nat.two_pow_pos _

/-- The fraction of a scaled significand, read as a rational, is the scaled significand. -/
theorem cast_fraction (m : Nat) (q : Int) :
    ((fraction m q).1 : ℚ) / (fraction m q).2 = m * 2 ^ q := by
  unfold fraction
  split
  · rename_i hq
    obtain ⟨n, rfl⟩ := Int.eq_ofNat_of_zero_le hq
    simp
  · rename_i hq
    obtain ⟨n, hn⟩ := Int.eq_ofNat_of_zero_le (show 0 ≤ -q by omega)
    obtain rfl : q = -n := by omega
    simp [div_eq_mul_inv]

/-- Comparing products compares the quotient. -/
theorem mul_lt_mul_iff_div_lt {num den : Nat} (hden : 0 < den) (k : Int) (m : Nat) :
    num * (fraction 1 k).2 < den * (fraction 1 k).1 * m ↔ (num : ℚ) / den < 2 ^ k * m := by
  have hb : (0 : ℚ) < (fraction 1 k).2 := by exact_mod_cast fraction_pos 1 k
  have hd : (0 : ℚ) < den := by exact_mod_cast hden
  have hk := cast_fraction 1 k
  rw [Nat.cast_one, one_mul] at hk
  rw [← hk, div_mul_eq_mul_div, div_lt_div_iff₀ hd hb]
  constructor
  · intro h
    have hcast : (num * (fraction 1 k).2 : ℚ) < den * (fraction 1 k).1 * m := by exact_mod_cast h
    linarith
  · intro h
    have hcast : (num * (fraction 1 k).2 : ℚ) < den * (fraction 1 k).1 * m := by linarith
    exact_mod_cast hcast

/-! ## Exact rounding -/

/-- The power of two of a number. -/
theorem log2_bounds {n : Nat} (h : n ≠ 0) :
    (2 : ℚ) ^ (n.log2 : Int) ≤ n ∧ (n : ℚ) < 2 ^ ((n.log2 : Int) + 1) := by
  have hlow := Nat.log2_self_le h
  have hhigh := Nat.lt_log2_self (n := n)
  constructor
  · rw [zpow_natCast]
    exact_mod_cast hlow
  · rw [show ((n.log2 : Int) + 1) = ((n.log2 + 1 : Nat) : Int) from rfl, zpow_natCast]
    exact_mod_cast hhigh

/-- The quotient of two numbers lies within a factor of two of the power their binary lengths give;
the estimate of the exponent rests on this. -/
theorem div_log2_bounds {num den : Nat} (hnum : num ≠ 0) (hden : den ≠ 0) :
    (2 : ℚ) ^ ((num.log2 : Int) - den.log2 - 1) < (num : ℚ) / den ∧
      (num : ℚ) / den < 2 ^ ((num.log2 : Int) - den.log2 + 1) := by
  obtain ⟨hnumLow, hnumHigh⟩ := log2_bounds hnum
  obtain ⟨hdenLow, hdenHigh⟩ := log2_bounds hden
  have hpos : (0 : ℚ) < den := by exact_mod_cast Nat.pos_of_ne_zero hden
  rw [lt_div_iff₀ hpos, div_lt_iff₀ hpos]
  constructor
  · calc (2 : ℚ) ^ ((num.log2 : Int) - den.log2 - 1) * den
        < 2 ^ ((num.log2 : Int) - den.log2 - 1) * 2 ^ ((den.log2 : Int) + 1) := by gcongr
      _ = 2 ^ (num.log2 : Int) := by
          rw [← zpow_add₀ two_ne_zero]
          congr 1
          omega
      _ ≤ num := hnumLow
  · calc (num : ℚ) < 2 ^ ((num.log2 : Int) + 1) := hnumHigh
      _ = 2 ^ ((num.log2 : Int) - den.log2 + 1) * 2 ^ (den.log2 : Int) := by
          rw [← zpow_add₀ two_ne_zero]
          congr 1
          omega
      _ ≤ 2 ^ ((num.log2 : Int) - den.log2 + 1) * den := by gcongr

/-- A power of two times the hidden bit is a power of two further by the width of the fraction. -/
theorem zpow_mul_hidden (k : Int) : (2 : ℚ) ^ k * f.hidden = 2 ^ (k + f.fractionBits) := by
  rw [zpow_add₀ two_ne_zero, zpow_natCast, hidden]
  simp

/-- The exponent that is found for a quotient with the value of a canonical pair is that of the
pair. -/
theorem exponentFor_eq {num den m : Nat} {q : Int} (hden : 0 < den) (hm : 0 < m)
    (h : f.IsCanonical m q) (hvalue : (num : ℚ) / den = m * 2 ^ q) : f.exponentFor num den = q := by
  obtain ⟨hleast, hwidth, hfull⟩ := h
  have hnum : num ≠ 0 := by
    rintro rfl
    have hzero : (0 : ℚ) < m * 2 ^ q := by positivity
    rw [← hvalue] at hzero
    simp at hzero
  obtain ⟨hlow, hhigh⟩ := div_log2_bounds hnum hden.ne'
  generalize hE : (num.log2 : Int) - den.log2 = E at hlow hhigh
  have hguess : num * (fraction 1 (E - f.fractionBits)).2 <
      den * (fraction 1 (E - f.fractionBits)).1 * f.hidden ↔ (num : ℚ) / den < 2 ^ E := by
    rw [mul_lt_mul_iff_div_lt hden, zpow_mul_hidden, Int.sub_add_cancel]
  have hfind : f.exponentFor num den =
      max (if (num : ℚ) / den < 2 ^ E then E - f.fractionBits - 1 else E - f.fractionBits)
        f.leastExponent := by
    unfold exponentFor
    simp only [hE, hguess]
  have hupper : (num : ℚ) / den < 2 ^ (q + f.fractionBits + 1) := by
    calc (num : ℚ) / den = m * 2 ^ q := hvalue
      _ < (2 * f.hidden) * 2 ^ q := by
          gcongr
          exact_mod_cast hwidth
      _ = 2 ^ (q + f.fractionBits + 1) := by
          rw [zpow_add_one₀ two_ne_zero, ← zpow_mul_hidden]
          ring
  have hlower : f.hidden ≤ m → (2 : ℚ) ^ (q + f.fractionBits) ≤ (num : ℚ) / den := by
    intro hwide
    rw [hvalue, ← zpow_mul_hidden, mul_comm]
    gcongr
  have hpow : ∀ {i j : Int}, (2 : ℚ) ^ i < 2 ^ j → i < j :=
    (zpow_lt_zpow_iff_right₀ one_lt_two).mp
  have hE₁ := hpow (hlow.trans hupper)
  rw [hfind]
  split
  case isTrue hbelow =>
    rcases hfull with hwide | rfl
    · have := hpow ((hlower hwide).trans_lt hbelow)
      omega
    · omega
  case isFalse habove =>
    have hE₂ := hpow ((not_lt.mp habove).trans_lt hupper)
    rcases hfull with hwide | rfl
    · have := hpow ((hlower hwide).trans_lt hhigh)
      omega
    · omega

/-- A division that leaves no remainder is not rounded. -/
theorem divideToEven_mul {m den : Nat} (hden : 0 < den) : divideToEven (m * den) den = m := by
  unfold divideToEven
  rw [Nat.mul_div_cancel _ hden, Nat.mul_mod_left]
  simp [hden]

/-- Zero bits are the only ones that stand for zero. -/
theorem value_eq_zero {bits : Nat} : f.value bits = 0 ↔ bits = 0 := by
  have hcanonical := f.isCanonical_magnitude bits
  constructor
  · intro h
    have hm : (f.magnitude bits).1 = 0 := by
      rcases mul_eq_zero.mp h with hm | hpow
      · exact_mod_cast hm
      · exact absurd hpow (zpow_ne_zero _ two_ne_zero)
    obtain ⟨-, -, hwide | hleast⟩ := hcanonical
    · exact absurd f.hidden_pos (by omega)
    · rw [← f.pack_magnitude bits, hm, hleast, pack, Int.sub_self]
      simp
  · rintro rfl
    simp [value, magnitude]

/-- A quotient with the value of finite bits is rounded to those bits. -/
theorem ofRatio_eq_of_value {num den bits : Nat} (hden : 0 < den) (hbits : bits < f.infinity)
    (hvalue : (num : ℚ) / den = f.value bits) : f.ofRatio num den = bits := by
  have hdenCast : (den : ℚ) ≠ 0 := by exact_mod_cast hden.ne'
  by_cases hnum : num = 0
  · subst hnum
    rw [Nat.cast_zero, zero_div] at hvalue
    rw [(f.value_eq_zero).mp hvalue.symm]
    rfl
  obtain ⟨m, q, hmq⟩ : ∃ m q, f.magnitude bits = (m, q) := ⟨_, _, rfl⟩
  have hcanonical := f.isCanonical_magnitude bits
  have hpack := f.pack_magnitude bits
  rw [value, hmq] at hvalue
  rw [hmq] at hcanonical hpack
  have hm : 0 < m := by
    rcases Nat.eq_zero_or_pos m with rfl | hm
    · rw [Nat.cast_zero, zero_mul, div_eq_zero_iff] at hvalue
      exact absurd hvalue (by simp [hnum, hden.ne'])
    · exact hm
  have hexact : num * (fraction 1 q).2 = m * (den * (fraction 1 q).1) := by
    have hb : ((fraction 1 q).2 : ℚ) ≠ 0 := by exact_mod_cast (fraction_pos 1 q).ne'
    have hq := cast_fraction 1 q
    rw [Nat.cast_one, one_mul, div_eq_iff hb] at hq
    rw [div_eq_iff hdenCast] at hvalue
    have hcast : (num * (fraction 1 q).2 : ℚ) = m * (den * (fraction 1 q).1) := by
      rw [hvalue, hq]
      ring
    exact_mod_cast hcast
  have hfraction : 0 < (fraction 1 q).1 := by
    unfold fraction
    split
    · exact Nat.mul_pos Nat.one_pos (Nat.two_pow_pos _)
    · exact Nat.one_pos
  unfold ofRatio
  rw [if_neg hnum, exponentFor_eq f hden hm hcanonical hvalue]
  dsimp only
  rw [hexact, divideToEven_mul (Nat.mul_pos hden hfraction)]
  show min (f.pack m q) f.infinity = bits
  rw [hpack]
  exact Nat.min_eq_left hbits.le

end SqlCompose.Binary.Format
