import SqlCompose.Text.Ascii
import SqlCompose.Text.Blank

/-!
# Decimal numerals

The number that decimal digits spell, and the integers that texts spell with a sign in front. A
numeral that has been written is read as its number again.
-/

namespace SqlCompose.Text

/-! ## Digits -/

/-- The digits of the readers are the digits of the character library. -/
theorem isDigit_eq (c : Char) : isDigit c = c.isDigit := by
  rw [Bool.eq_iff_iff, Char.isDigit_iff_toNat]
  simp [isDigit, Char.le_def, UInt32.le_iff_toNat_le]

/-- The value of a digit is its distance from zero. -/
theorem digit?_of_isDigit {c : Char} (h : isDigit c = true) :
    digit? c = some (c.toNat - '0'.toNat) := by
  rw [digit?, if_pos (of_decide_eq_true h)]

/-- No digit is a blank. -/
theorem isBlank_of_isDigit {c : Char} (h : isDigit c = true) : isBlank c = false := by
  have hrange : '0' ≤ c ∧ c ≤ '9' := of_decide_eq_true h
  simp only [Char.le_def, UInt32.le_iff_toNat_le] at hrange
  have hlow : 48 ≤ c.toNat := hrange.1
  have hhigh : c.toNat ≤ 57 := hrange.2
  simp only [isBlank, Bool.or_eq_false_iff, Bool.and_eq_false_imp, beq_eq_false_iff_ne,
    decide_eq_true_eq, decide_eq_false_iff_not]
  omega

/-- Folding digits onto a number is the library's reading of them in base ten. -/
theorem foldDigits_eq (soFar : Nat) {digits : List Char}
    (h : ∀ c ∈ digits, isDigit c = true) :
    foldDigits soFar digits = Nat.ofDigitChars 10 digits soFar := by
  induction digits generalizing soFar with
  | nil => rfl
  | cons c digits ih =>
    rw [List.forall_mem_cons] at h
    rw [Nat.ofDigitChars_cons, ← ih _ h.2]
    simp [foldDigits, digit?_of_isDigit h.1, Nat.mul_comm]

/-- The number digits write is the library's reading of them in base ten. -/
theorem ofDigits_eq {digits : List Char} (h : ∀ c ∈ digits, isDigit c = true) :
    ofDigits digits = Nat.ofDigitChars 10 digits 0 := foldDigits_eq 0 h

/-! ## Numerals that have been written -/

/-- A number is written with digits only. -/
theorem isDigit_of_mem_decimal {n : Nat} {c : Char} (h : c ∈ decimal n) : isDigit c = true := by
  rw [isDigit_eq]
  exact Nat.isDigit_of_mem_toDigits (by decide) (by decide) h

/-- A written number is never the empty text. -/
theorem decimal_ne_nil (n : Nat) : decimal n ≠ [] := Nat.toDigits_ne_nil

/-- A written number is read back as it was. -/
theorem ofDigits_decimal (n : Nat) : ofDigits (decimal n) = n := by
  rw [ofDigits_eq fun c => isDigit_of_mem_decimal]
  exact Nat.ofDigitChars_ten_toDigits

/-- Only zero is written with a zero in front. -/
theorem head?_decimal {n : Nat} (h : n ≠ 0) : (decimal n).head? ≠ some '0' := by
  induction n using Nat.strongRecOn with
  | _ n ih =>
    rw [decimal, Nat.toDigits_eq_if (by decide)]
    split
    · simpa using h
    · rw [List.head?_append, List.head?_eq_some_head Nat.toDigits_ne_nil, Option.some_or,
        ← List.head?_eq_some_head]
      exact ih (n / 10) (by omega) (by omega)

/-! ## Integers -/

/-- Whether digits are decimal ones, and one at least. -/
def AreDigits (digits : List Char) : Prop := digits ≠ [] ∧ ∀ c ∈ digits, c.isDigit = true

/-- Whether a text spells an integer: digits, one at least, behind a sign or none. -/
inductive Spells : List Char → Int → Prop where
  /-- Without a sign. -/
  | bare {digits : List Char} : AreDigits digits → Spells digits (Nat.ofDigitChars 10 digits 0)
  /-- With a plus sign. -/
  | plus {digits : List Char} : AreDigits digits →
    Spells ('+' :: digits) (Nat.ofDigitChars 10 digits 0)
  /-- With a minus sign. -/
  | minus {digits : List Char} : AreDigits digits →
    Spells ('-' :: digits) (-(Nat.ofDigitChars 10 digits 0 : Int))

/-- The check the readers make on digits, as the proposition the lemmas use. -/
theorem areDigits_iff {digits : List Char} :
    AreDigits digits ↔ (digits.isEmpty || !digits.all isDigit) = false := by
  simp [AreDigits, isDigit_eq]

/-- The reading in base ten, for a text that passed the check. -/
theorem AreDigits.ofDigits_eq {digits : List Char} (h : AreDigits digits) :
    ofDigits digits = Nat.ofDigitChars 10 digits 0 :=
  Text.ofDigits_eq fun c hc => (isDigit_eq c).trans (h.2 c hc)

/-- Digits are read as their number, without and with a sign. -/
theorem ite_areDigits_eq_some {digits : List Char} {f : Nat → Int} {n : Int} :
    (if digits.isEmpty || !digits.all isDigit then none else some (f (ofDigits digits))) = some n ↔
      AreDigits digits ∧ f (Nat.ofDigitChars 10 digits 0) = n := by
  rw [areDigits_iff]
  cases h : digits.isEmpty || !digits.all isDigit with
  | true => simp
  | false => simp [(areDigits_iff.mpr h).ofDigits_eq]

/-- The reader of integers accepts exactly the spellings of a number. -/
theorem readInt?_eq_some {text : List Char} {n : Int} :
    readInt? text = some n ↔ Spells text n := by
  unfold readInt?
  split
  case h_1 digits =>
    rw [ite_areDigits_eq_some (f := fun m => -(m : Int))]
    constructor
    · rintro ⟨hdigits, rfl⟩
      exact .minus hdigits
    · intro h
      cases h with
      | bare hdigits => exact absurd (hdigits.2 '-' (by simp)) (by decide)
      | minus hdigits => exact ⟨hdigits, rfl⟩
  case h_2 digits =>
    rw [ite_areDigits_eq_some (f := fun m => (m : Int))]
    constructor
    · rintro ⟨hdigits, rfl⟩
      exact .plus hdigits
    · intro h
      cases h with
      | bare hdigits => exact absurd (hdigits.2 '+' (by simp)) (by decide)
      | plus hdigits => exact ⟨hdigits, rfl⟩
  case h_3 hminus hplus =>
    rw [ite_areDigits_eq_some (f := fun m => (m : Int))]
    constructor
    · rintro ⟨hdigits, rfl⟩
      exact .bare hdigits
    · intro h
      cases h with
      | bare hdigits => exact ⟨hdigits, rfl⟩
      | plus => exact absurd rfl (hplus _)
      | minus => exact absurd rfl (hminus _)

end SqlCompose.Text
