import Mathlib.Data.List.TakeWhile
import SqlCompose.Binary.Numeral
import SqlCompose.Proofs.Text.Numeral

/-!
# Numerals of integers as floating-point numbers

Digits behind a sign or none are read as the number nearest to the integer that they spell.
-/

namespace SqlCompose.Double

/-- Digits have no case, so the words for infinity are not mistaken for them. -/
theorem toLower_of_isDigit {c : Char} (h : c.isDigit = true) : c.toLower = c := by
  have hhigh : c.toNat ≤ 57 := (Char.isDigit_iff_toNat.mp h).2
  unfold Char.toLower
  rw [dif_neg]
  rintro ⟨hlow, -⟩
  have hlow : 65 ≤ c.toNat := hlow
  omega

/-- A word that starts with a letter is no run of digits, in any case. -/
theorem asciiLower_ne_of_digits {digits : List Char} (h : Text.AreDigits digits) (word : String)
    (hword : ∀ c ∈ word.toList.head?, c.isDigit = false) :
    (Text.asciiLower (String.ofList digits) == word) = false := by
  rw [beq_eq_false_iff_ne]
  rintro rfl
  obtain ⟨hne, hdigits⟩ := h
  obtain ⟨c, rest, rfl⟩ := List.exists_cons_of_ne_nil hne
  have hc := hdigits c (by simp)
  have hlower := hword c.toLower (by simp [Text.asciiLower])
  rw [toLower_of_isDigit hc, hc] at hlower
  cases hlower

/-- A text of digits alone is read as the number they write, with exponent zero. -/
theorem readMagnitude?_digits (negative : Bool) {digits : List Char} (h : Text.AreDigits digits) :
    readMagnitude? negative digits =
      some (.ofDecimal negative (Nat.ofDigitChars 10 digits 0) 0) := by
  have htake : digits.takeWhile Text.isDigit = digits :=
    List.takeWhile_eq_self_iff.mpr fun c hc => (Text.isDigit_eq c).trans (h.2 c hc)
  have hempty : digits.isEmpty = false := by simp [h.1]
  unfold readMagnitude?
  simp only [asciiLower_ne_of_digits h "inf" (by simp),
    asciiLower_ne_of_digits h "infinity" (by simp), asciiLower_ne_of_digits h "nan" (by simp),
    htake, List.drop_length, hempty, Bool.or_false, Bool.false_eq_true, if_false, Bool.false_and,
    readExponent?]
  simp [ofPlaces, h.ofDigits_eq]

/-- Digits with a sign are read as the floating-point number nearest to their integer. -/
theorem read?_of_spells {text : List Char} {n : Int} (h : Text.Spells text n) :
    ∃ negative, read? text = some (.ofDecimal negative n.natAbs 0) ∧
      (n ≠ 0 → negative = decide (n < 0)) := by
  cases h with
  | bare h =>
    refine ⟨false, ?_, by simp⟩
    unfold read?
    split
    · exact absurd (h.2 '-' (by simp)) (by decide)
    · exact absurd (h.2 '+' (by simp)) (by decide)
    · exact readMagnitude?_digits false h
  | plus h => exact ⟨false, readMagnitude?_digits false h, by simp⟩
  | minus h =>
    refine ⟨true, ?_, ?_⟩
    · rw [Int.natAbs_neg, Int.natAbs_natCast]
      exact readMagnitude?_digits true h
    · simp
      omega

end SqlCompose.Double
