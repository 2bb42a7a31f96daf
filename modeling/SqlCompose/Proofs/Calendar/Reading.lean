import Mathlib.Algebra.Group.Nat.Defs
import SqlCompose.Calendar.Reading
import SqlCompose.Calendar.Writing
import SqlCompose.Proofs.Calendar.DateTime
import SqlCompose.Proofs.Text.Numeral

/-!
# Dates and moments that are read back

Every date that is written is read as itself, and every moment as what is shown of it: signed years
of any length, fractions of a second of any number of digits, and leap seconds, of which those
within a minute are shown as the second that follows. Each part is read in front of any text that
does not go on with it, and the parts are put together.
-/

namespace SqlCompose.Text

/-! ## Padded numerals -/

/-- Padded numbers hold digits only. -/
theorem isDigit_of_mem_decimalPadded {width n : Nat} {c : Char} (h : c ∈ decimalPadded width n) :
    isDigit c = true := by
  rcases List.mem_append.mp h with hzero | hdigit
  · rw [List.eq_of_mem_replicate hzero]
    rfl
  · exact isDigit_of_mem_decimal hdigit

/-- A padded number is never the empty text. -/
theorem decimalPadded_ne_nil (width n : Nat) : decimalPadded width n ≠ [] :=
  List.append_ne_nil_of_right_ne_nil _ (decimal_ne_nil n)

/-- Reading a padded number gives the number back, whatever the padding. -/
theorem ofDigits_decimalPadded (width n : Nat) : ofDigits (decimalPadded width n) = n := by
  rw [ofDigits_eq fun c => isDigit_of_mem_decimalPadded, decimalPadded, Nat.ofDigitChars_append,
    Nat.ofDigitChars_replicate_zero, Nat.mul_zero, ← ofDigits_eq fun c => isDigit_of_mem_decimal,
    ofDigits_decimal]

/-- A number that fits is padded to the width. -/
theorem length_decimalPadded {width n : Nat} (hwidth : 0 < width) (h : n < 10 ^ width) :
    (decimalPadded width n).length = width := by
  have hlength : (decimal n).length ≤ width := (Nat.length_toDigits_le_iff (by decide) hwidth).mpr h
  rw [decimalPadded, List.length_append, List.length_replicate]
  omega

theorem trimStart_nil : trimStart [] = [] := rfl

/-- Text that starts with something other than a blank is left as it is. -/
theorem trimStart_cons {c : Char} (h : isBlank c = false) (rest : List Char) :
    trimStart (c :: rest) = c :: rest := by
  rw [trimStart, List.dropWhile_cons, if_neg (by simp [h])]

/-- A number in front of a text stands where the blanks would, so nothing is trimmed. -/
theorem trimStart_digits {digits : List Char} (hne : digits ≠ [])
    (hdigits : ∀ c ∈ digits, isDigit c = true) (rest : List Char) :
    trimStart (digits ++ rest) = digits ++ rest := by
  obtain ⟨c, more, rfl⟩ := List.exists_cons_of_ne_nil hne
  exact trimStart_cons (isBlank_of_isDigit (hdigits c List.mem_cons_self)) _

end SqlCompose.Text

namespace SqlCompose.Calendar

open Text (isDigit ofDigits decimalPadded trimStart)

/-! ## Numbers -/

/-- Whether a number ends in front of a text. -/
def EndsNumber (rest : List Char) : Prop := ∀ c ∈ rest.head?, isDigit c = false

/-- The digits taken from a text end where the number written there ends. -/
theorem takeWhile_digits {digits rest : List Char} (hdigits : ∀ c ∈ digits, isDigit c = true)
    (hrest : EndsNumber rest) : (digits ++ rest).takeWhile isDigit = digits := by
  rw [List.takeWhile_append_of_pos hdigits]
  cases rest with
  | nil => rw [List.takeWhile_nil, List.append_nil]
  | cons c rest =>
    rw [List.takeWhile_cons, if_neg (by simp [hrest c rfl]), List.append_nil]

/-- Digits that fill the width are read whatever stands behind them. -/
theorem readNumber?_full {digits : List Char} (hne : digits ≠ [])
    (hdigits : ∀ c ∈ digits, isDigit c = true) (rest : List Char) :
    readNumber? digits.length (digits ++ rest) = some (ofDigits digits, rest) := by
  have htake : ((digits ++ rest).takeWhile isDigit).take digits.length = digits := by
    rw [List.takeWhile_append_of_pos hdigits, List.take_left]
  rw [readNumber?, htake]
  simp [hne]

/-- Digits within the width are read if the number ends behind them. -/
theorem readNumber?_within {width : Nat} {digits rest : List Char} (hne : digits ≠ [])
    (hdigits : ∀ c ∈ digits, isDigit c = true) (hwidth : digits.length ≤ width)
    (hrest : EndsNumber rest) :
    readNumber? width (digits ++ rest) = some (ofDigits digits, rest) := by
  have htake : ((digits ++ rest).takeWhile isDigit).take width = digits := by
    rw [takeWhile_digits hdigits hrest, List.take_of_length_le hwidth]
  rw [readNumber?, htake]
  simp [hne]

/-- A number padded to a width is read back whole by a reader of that many digits. -/
theorem readNumber?_padded {width n : Nat} (hwidth : 0 < width) (h : n < 10 ^ width)
    (rest : List Char) : readNumber? width (decimalPadded width n ++ rest) = some (n, rest) := by
  have hfull := readNumber?_full (Text.decimalPadded_ne_nil width n)
    (fun c => Text.isDigit_of_mem_decimalPadded) rest
  rwa [Text.length_decimalPadded hwidth h, Text.ofDigits_decimalPadded] at hfull

/-- A number that a signed year ends with is read. -/
theorem readNumber?_signed (n : Nat) {rest : List Char} (hrest : EndsNumber rest) :
    readNumber? (decimalPadded 4 n ++ rest).length (decimalPadded 4 n ++ rest) =
      some (n, rest) := by
  rw [readNumber?_within (Text.decimalPadded_ne_nil 4 n)
    (fun c => Text.isDigit_of_mem_decimalPadded) (by simp) hrest, Text.ofDigits_decimalPadded]

/-- Two digits are read as a field, whatever stands behind them. -/
theorem readField?_two {n : Nat} (h : n < 100) (rest : List Char) :
    readField? 2 (decimalPadded 2 n ++ rest) = some (n, rest) := by
  rw [readField?, Text.trimStart_digits (Text.decimalPadded_ne_nil 2 n)
    fun c => Text.isDigit_of_mem_decimalPadded]
  exact readNumber?_padded (by decide) h rest

/-! ## Years -/

/-- A year after a minus sign is read as the negative number. -/
theorem readYear?_minus (text : List Char) : readYear? ('-' :: text) =
    (readNumber? text.length text).map fun (n, rest) => (-(n : Int), rest) := by
  rw [readYear?, Text.trimStart_cons rfl]
  rfl

/-- A year after a plus sign is read as the number itself, with any number of digits. -/
theorem readYear?_plus (text : List Char) : readYear? ('+' :: text) =
    (readNumber? text.length text).map fun (n, rest) => ((n : Int), rest) := by
  rw [readYear?, Text.trimStart_cons rfl]
  rfl

/-- A year without a sign. -/
theorem readYear?_digit {c : Char} (hc : isDigit c = true) (text : List Char) :
    readYear? (c :: text) =
      (readNumber? 4 (c :: text)).map fun (n, rest) => ((n : Int), rest) := by
  rw [readYear?, Text.trimStart_cons (Text.isBlank_of_isDigit hc)]
  split
  · rename_i heq
    obtain rfl := List.head_eq_of_cons_eq heq
    cases hc
  · rename_i heq
    obtain rfl := List.head_eq_of_cons_eq heq
    cases hc
  · rfl

/-- A year is read in front of what is no digit. -/
theorem readYear?_writeYear (year : Int) {rest : List Char} (hrest : EndsNumber rest) :
    readYear? (writeYear year ++ rest) = some (year, rest) := by
  rw [writeYear]
  split
  · have hyear : -(year.natAbs : Int) = year := by omega
    rw [List.cons_append, readYear?_minus, readNumber?_signed _ hrest, Option.map_some]
    exact congrArg (fun y => some (y, rest)) hyear
  · have hyear : (year.natAbs : Int) = year := by omega
    split
    · obtain ⟨c, more, hcons⟩ := List.exists_cons_of_ne_nil (Text.decimalPadded_ne_nil 4 year.natAbs)
      have hc : isDigit c = true := Text.isDigit_of_mem_decimalPadded (hcons ▸ List.mem_cons_self)
      have hread := readNumber?_padded (show 0 < 4 by decide)
        (show year.natAbs < 10 ^ 4 by omega) rest
      rw [hcons, List.cons_append] at hread ⊢
      rw [readYear?_digit hc, hread, Option.map_some]
      exact congrArg (fun y => some (y, rest)) hyear
    · rw [List.cons_append, readYear?_plus, readNumber?_signed _ hrest, Option.map_some]
      exact congrArg (fun y => some (y, rest)) hyear

/-! ## Dates -/

/-- A mark is read where it stands. -/
theorem readMark?_self (mark : Char) (rest : List Char) :
    readMark? mark (mark :: rest) = some rest := by
  rw [readMark?, if_pos rfl]

/-- A number ends in front of anything that is no digit. -/
theorem endsNumber_cons {c : Char} (h : isDigit c = false) (rest : List Char) :
    EndsNumber (c :: rest) := by
  intro d hd
  obtain rfl := Option.some.inj hd
  exact h

/-- The month of a date is written with two digits. -/
theorem Date.month_lt (d : Date) : d.month < 100 := by
  obtain ⟨-, ⟨-, hmonth⟩, -⟩ := Date.isDate_iff.mp d.exists_day
  omega

/-- No month is longer than 31 days. -/
theorem daysInMonth_le (year : Int) (month : Nat) : daysInMonth year month ≤ 31 := by
  unfold daysInMonth
  split
  case h_12 => split <;> decide
  all_goals decide

/-- The day of a date is written with two digits. -/
theorem Date.day_lt (d : Date) : d.day < 100 := by
  obtain ⟨-, -, -, hday⟩ := Date.isDate_iff.mp d.exists_day
  have hmonth := daysInMonth_le d.year d.month
  omega

/-- A date is rebuilt from its own parts. -/
theorem Date.of?_self (d : Date) : Date.of? d.year d.month d.day = some d :=
  Date.of?_eq_some.mpr ⟨rfl, rfl, rfl⟩

/-- A date that is written is read as itself. -/
theorem Date.read?_write (d : Date) : Date.read? (String.ofList d.write) = some d := by
  have hday := readField?_two d.day_lt []
  rw [List.append_nil] at hday
  rw [Date.read?, String.toList_ofList, Date.write, List.append_assoc, List.cons_append,
    readYear?_writeYear d.year (endsNumber_cons rfl _)]
  simp [readMark?_self, readField?_two d.month_lt, hday, d.of?_self]

/-- A date is read in front of anything, with blanks allowed around its parts. -/
theorem readLooseDate?_write (d : Date) (rest : List Char) :
    readLooseDate? (d.write ++ rest) = some ((d.year, d.month, d.day), rest) := by
  have hmark : ∀ text : List Char, readMark? '-' (trimStart ('-' :: text)) = some text := by
    intro text
    rw [Text.trimStart_cons rfl, readMark?_self]
  rw [readLooseDate?, Date.write, List.append_assoc, List.append_assoc, List.cons_append,
    readYear?_writeYear d.year (endsNumber_cons rfl _)]
  simp [hmark, readField?_two d.month_lt, readField?_two d.day_lt]

/-! ## Times of day -/

/-- Whether what stands behind a time is neither a digit nor a point. -/
def EndsClock (rest : List Char) : Prop := EndsNumber rest ∧ rest.head? ≠ some '.'

/-- A clock without a dot after its seconds has no fraction. -/
theorem readFraction?_none {rest : List Char} (h : rest.head? ≠ some '.') :
    readFraction? rest = some (0, rest) := by
  unfold readFraction?
  split
  · exact absurd rfl h
  · rfl

/-- Digits behind a point are read as the nanoseconds that they stand for. -/
theorem readFraction?_padded {width n : Nat} (hwidth : 0 < width) (hnine : width ≤ 9)
    (h : n < 10 ^ width) {rest : List Char} (hrest : EndsNumber rest) :
    readFraction? ('.' :: (decimalPadded width n ++ rest)) = some (n * 10 ^ (9 - width), rest) := by
  have hlength := Text.length_decimalPadded hwidth h
  have hpadded : ∀ c ∈ decimalPadded width n, isDigit c = true :=
    fun c => Text.isDigit_of_mem_decimalPadded
  have hdigits := takeWhile_digits hpadded hrest
  have htake : (decimalPadded width n).take 9 = decimalPadded width n :=
    List.take_of_length_le (by omega)
  have hne : (decimalPadded width n).isEmpty = false := by
    simpa using Text.decimalPadded_ne_nil width n
  rw [readFraction?]
  simp [hdigits, htake, hne, hlength, Text.ofDigits_decimalPadded]

/-- A fraction that is written is read as its nanoseconds. -/
theorem readFraction?_writeFraction {nano : Nat} (h : nano < 1000000000) {rest : List Char}
    (hrest : EndsClock rest) :
    readFraction? (writeFraction .asNeeded nano ++ rest) = some (nano, rest) := by
  rw [writeFraction]
  split
  · rename_i hzero
    rw [hzero]
    exact readFraction?_none hrest.2
  · split
    · have hnano : nano / 1000000 * 10 ^ (9 - 3) = nano := by omega
      rw [List.cons_append, readFraction?_padded (by decide) (by decide) (by omega) hrest.1, hnano]
    · split
      · have hnano : nano / 1000 * 10 ^ (9 - 6) = nano := by omega
        rw [List.cons_append, readFraction?_padded (by decide) (by decide) (by omega) hrest.1,
          hnano]
      · rw [List.cons_append, readFraction?_padded (by decide) (by decide) (by omega) hrest.1,
          Nat.sub_self, Nat.pow_zero, Nat.mul_one]

/-- A time of day that is written is read as what is shown of it, in front of what does not go on
with it. -/
theorem readLooseClock?_write (t : Clock) {rest : List Char} (hrest : EndsClock rest) :
    readLooseClock? (t.write .asNeeded ++ rest) = some (t.shown, trimStart rest) := by
  obtain ⟨hhour, hminute, hsecond, hnano⟩ := isClock_iff.mp t.in_day
  have hmark : ∀ text : List Char, readMark? ':' (trimStart (':' :: text)) = some text := by
    intro text
    rw [Text.trimStart_cons rfl, readMark?_self]
  have hshown : t.shownSecond < 100 := by
    unfold Clock.shownSecond nanosPerSecond at *
    omega
  have hfraction : t.fraction < 1000000000 := Nat.mod_lt _ (by decide)
  rw [readLooseClock?, Clock.write]
  simp [hmark, readField?_two (show t.hour < 100 by omega),
    readField?_two (show t.minute < 100 by omega), readField?_two hshown,
    readFraction?_writeFraction hfraction hrest, t.ofShown?_self]

/-! ## Moments -/

/-- A moment without an offset that is written is read as what is shown of it. -/
theorem DateTime.read?_write (t : DateTime) :
    DateTime.read? (String.ofList (t.write 'T' .asNeeded)) = some t.shown := by
  have hmark : ∀ text : List Char, readMark? 'T' (trimStart ('T' :: text)) = some text := by
    intro text
    rw [Text.trimStart_cons rfl, readMark?_self]
  have hends : EndsClock [] := ⟨nofun, nofun⟩
  have hclock := readLooseClock?_write t.clock hends
  rw [List.append_nil] at hclock
  rw [DateTime.read?, String.toList_ofList, DateTime.write, readLooseDate?_write]
  simp [hmark, hclock, t.date.of?_self, Text.trimStart_nil, DateTime.shown]

/-- A moment is no minutes before itself. -/
theorem DateTime.minutesBefore?_zero (t : DateTime) : t.minutesBefore? 0 = some t := by
  obtain ⟨hhour, hminute, hsecond, hnano⟩ := isClock_iff.mp t.clock.in_day
  unfold DateTime.minutesBefore?
  simp only [bind, Option.bind_eq_some_iff, Date.ofNumber?_eq_some, Clock.of?_eq_some]
  refine ⟨t.date, ?_, t.clock, ⟨?_, ?_, rfl, rfl⟩, rfl⟩ <;> omega

/-- The offset of universal time is read as zero. -/
theorem readOffset?_zero : readOffset? ['+', '0', '0', ':', '0', '0'] = some (0, []) := by
  have hutc : Text.equalIgnoringCase (String.ofList ['+', '0', '0']) "utc" = false := by
    rw [Text.equalIgnoringCase_eq]
    decide
  simp only [readOffset?, List.take_succ_cons, List.take_zero, hutc]
  rfl

/-- A moment of the universal clock that is written with offset zero is read as what is shown of
it. -/
theorem DateTime.readUniversal?_write (t : DateTime) :
    DateTime.readUniversal?
      (String.ofList (t.write 'T' .asNeeded ++ ['+', '0', '0', ':', '0', '0'])) =
        some t.shown := by
  have hends : EndsClock ['+', '0', '0', ':', '0', '0'] := ⟨endsNumber_cons rfl _, by decide⟩
  have htrim : trimStart ['+', '0', '0', ':', '0', '0'] = ['+', '0', '0', ':', '0', '0'] := rfl
  rw [DateTime.readUniversal?, String.toList_ofList, DateTime.write, List.append_assoc,
    List.cons_append, readLooseDate?_write]
  simp [readLooseClock?_write t.clock hends, htrim, readOffset?_zero, t.date.of?_self,
    Text.trimStart_nil, DateTime.minutesBefore?_zero, DateTime.shown]

end SqlCompose.Calendar
