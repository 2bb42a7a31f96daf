import SqlCompose.Binary.Shortest

/-!
# The digits that the search finds

The shortest digits of a number are found on some grid, where they round to the number, and lose
the zeros at their end. Where no grid is found, they are a plain zero.
-/

namespace SqlCompose.Binary

variable {f : Format} {rule : HalfwayRule} {bits : Nat}

/-- A candidate has digits, and rounds to the number. -/
theorem Format.onGrid_eq_some {k : Int} {d : Decimal} (h : f.onGrid rule bits k = some d) :
    d.digits ≠ 0 ∧ f.rounds bits d = true := by
  unfold onGrid at h
  dsimp only at h
  generalize (Format.fraction (f.magnitude bits).1 (f.magnitude bits).2) = x at h
  generalize (Decimal.ratio ⟨1, k⟩) = y at h
  generalize hbelow : x.1 * y.2 / (x.2 * y.1) = below at h
  split at h
  case h_1 hlower _ =>
    obtain rfl := Option.some.inj h
    simpa using hlower
  case h_2 hupper =>
    obtain rfl := Option.some.inj h
    exact ⟨Nat.succ_ne_zero _, hupper⟩
  case h_3 => cases h
  case h_4 hlower hupper =>
    have hcases : d = ⟨below, k⟩ ∨ d = ⟨below + 1, k⟩ := by
      cases rule <;> grind
    rcases hcases with rfl | rfl
    · simpa using hlower
    · exact ⟨Nat.succ_ne_zero _, hupper⟩

/-- The first grid with a candidate gives it; without one there is a zero. -/
theorem Format.search_cases (leading : Int) (fuel count : Nat) :
    f.search rule bits leading fuel count = ⟨0, 0⟩ ∨
      (f.search rule bits leading fuel count).digits ≠ 0 ∧
        f.rounds bits (f.search rule bits leading fuel count) = true := by
  induction fuel generalizing count with
  | zero => exact .inl rfl
  | succ fuel ih =>
    rw [search]
    split
    · rename_i hd
      exact .inr (onGrid_eq_some hd)
    · exact ih (count + 1)

/-- Dropping trailing zeros keeps a decimal other than zero different from zero. -/
theorem Decimal.digits_strip {d : Decimal} (fuel : Nat) (h : d.digits ≠ 0) :
    (d.strip fuel).digits ≠ 0 := by
  induction fuel generalizing d with
  | zero => exact h
  | succ fuel ih =>
    rw [strip]
    split
    · rename_i hzero
      exact ih (show d.digits / 10 ≠ 0 by omega)
    · exact h

/-- Zero has no zeros to drop. -/
theorem Decimal.strip_zero (exponent : Int) (fuel : Nat) :
    (⟨0, exponent⟩ : Decimal).strip fuel = ⟨0, exponent⟩ := by
  cases fuel <;> simp [strip]

/-- The shortest digits are not zero, save where they are a plain zero. -/
theorem Format.shortest_cases (f : Format) (rule : HalfwayRule) (bits : Nat) :
    f.shortest rule bits = ⟨0, 0⟩ ∨ (f.shortest rule bits).digits ≠ 0 := by
  unfold shortest
  rcases f.search_cases (leadingPower (Format.fraction (f.magnitude bits).1 (f.magnitude bits).2).1
    (Format.fraction (f.magnitude bits).1 (f.magnitude bits).2).2) 18 0 with hzero | ⟨hdigits, -⟩
  · exact .inl (by dsimp only; rw [hzero, Decimal.strip_zero])
  · exact .inr (Decimal.digits_strip 20 hdigits)

end SqlCompose.Binary
