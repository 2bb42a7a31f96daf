import Mathlib.Data.Option.Basic
import SqlCompose.Json.Writing
import SqlCompose.Json.Reading
import SqlCompose.Proofs.Binary.Shortest
import SqlCompose.Proofs.Text.Numeral

/-!
# Numerals in JSON text

A number is written as a whole part, a fraction and an exponent, each of which may be missing save
the first. `Takes` says that a reader takes all of a text and nothing behind it, whatever stands
there; `takes_write` that the reader of numbers takes what has been written for a number. An integer
is read as itself (`readNumber?_int`).
-/

namespace SqlCompose.Json

open Binary (Layout)
open Text (AreDigits isDigit decimal ofDigits foldDigits signedDecimal)

/-! ## What stands behind a value -/

/-- Whether a text can stand behind a value inside an array or an object, or at the end. -/
def Closes (rest : List Char) : Prop := ∀ c ∈ rest.head?, c = ',' ∨ c = ']' ∨ c = '}'

/-- The end of the text can stand behind a value. -/
theorem closes_nil : Closes [] := nofun

/-- A comma or a closing bracket can stand behind a value. -/
theorem closes_cons {c : Char} {rest : List Char} (h : c = ',' ∨ c = ']' ∨ c = '}') :
    Closes (c :: rest) := by
  rintro _ ⟨⟩
  exact h

/-- Whether a reader takes all of a text and leaves what stands behind it. -/
def Takes (read : List Char → Option (Json × List Char)) (text : List Char) : Prop :=
  ∃ result : Option Json, ∀ rest, Closes rest → read (text ++ rest) = result.map (·, rest)

/-! ## Parts of a numeral -/

/-- Whether digits are the whole part of a numeral. A zero stands alone. -/
def IsWhole (digits : List Char) : Prop :=
  AreDigits digits ∧ (digits.head? = some '0' → digits.length = 1)

/-- The exponent of a numeral, if it has one. -/
inductive IsExponent : List Char → Prop where
  /-- No exponent. -/
  | none : IsExponent []
  /-- An exponent and its sign. -/
  | signed {sign : Char} {digits : List Char} : sign = '+' ∨ sign = '-' → AreDigits digits →
    IsExponent ('e' :: sign :: digits)

/-- A numeral without a sign. -/
inductive IsMagnitude : List Char → Prop where
  /-- Without a fraction. -/
  | whole {digits exponent : List Char} : IsWhole digits → IsExponent exponent →
    IsMagnitude (digits ++ exponent)
  /-- With a fraction. -/
  | fraction {digits places exponent : List Char} : IsWhole digits → AreDigits places →
    IsExponent exponent → IsMagnitude (digits ++ '.' :: (places ++ exponent))

/-- The digits of a number pass the check on digits. -/
theorem areDigits_decimal (n : Nat) : AreDigits (decimal n) := by
  refine ⟨Text.decimal_ne_nil n, fun c hc => ?_⟩
  rw [← Text.isDigit_eq]
  exact Text.isDigit_of_mem_decimal hc

/-- The digits of a number are a whole part: no zero leads but a single one. -/
theorem isWhole_decimal (n : Nat) : IsWhole (decimal n) := by
  refine ⟨areDigits_decimal n, fun hzero => ?_⟩
  by_cases hn : n = 0
  · subst hn
    rfl
  · exact absurd hzero (Text.head?_decimal hn)

/-! ## Runs of digits -/

/-- A run of digits is taken up to the first character that is none. -/
theorem takeWhile_digits {digits rest : List Char} (h : AreDigits digits)
    (hrest : ∀ c ∈ rest.head?, isDigit c = false) :
    (digits ++ rest).takeWhile isDigit = digits := by
  rw [List.takeWhile_append_of_pos fun c hc => (Text.isDigit_eq c).trans (h.2 c hc)]
  cases rest with
  | nil => simp
  | cons c rest => simp [hrest c rfl]

/-- What stands behind a value does not go on with a number. -/
theorem Closes.isDigit {rest : List Char} (h : Closes rest) :
    ∀ c ∈ rest.head?, isDigit c = false := by
  intro c hc
  rcases h c hc with rfl | rfl | rfl <;> rfl

/-! ## Reading the parts -/

/-- A numeral without an exponent ends with what stands behind it. -/
theorem finishNumber?_of_closes (negative : Bool) (significand : Nat) (exponent : Int)
    {rest : List Char} (h : Closes rest) :
    finishNumber? negative significand exponent rest =
      (float? negative significand exponent).map (·, rest) := by
  cases rest with
  | nil => simp [finishNumber?, Option.map_eq_bind]
  | cons c rest =>
    have hmark : ¬(c = 'e' ∨ c = 'E') := by
      rcases h c rfl with rfl | rfl | rfl <;> decide
    simp [finishNumber?, hmark, Option.map_eq_bind]

/-- An exponent, or none, is taken whole. -/
theorem takes_finishNumber? (negative : Bool) (significand : Nat) (exponent : Int)
    {text : List Char} (h : IsExponent text) :
    Takes (finishNumber? negative significand exponent) text := by
  cases h with
  | none => exact ⟨_, fun rest hrest => finishNumber?_of_closes _ _ _ hrest⟩
  | @signed sign digits hsign hdigits =>
    obtain ⟨shift, hshift⟩ : ∃ shift, ∀ rest, Closes rest →
        readExponent? (sign :: (digits ++ rest)) = some (shift, rest) := by
      refine ⟨if sign = '-' then -ofDigits digits else ofDigits digits, fun rest hrest => ?_⟩
      rcases hsign with rfl | rfl
      · simp [readExponent?, takeWhile_digits hdigits hrest.isDigit, hdigits.1]
      · simp [readExponent?, takeWhile_digits hdigits hrest.isDigit, hdigits.1]
    refine ⟨float? negative significand (exponent + shift), fun rest hrest => ?_⟩
    simp [finishNumber?, hshift rest hrest, Option.map_eq_bind]

/-- A whole part has no leading zero. -/
theorem IsWhole.not_leading {digits : List Char} (h : IsWhole digits) :
    ¬(digits.head? = some '0' ∧ 1 < digits.length) :=
  fun hzero => absurd (h.2 hzero.1) (by omega)

/-- A numeral with a fraction is read as all of its digits, scaled down by the places of the
fraction. -/
theorem readMagnitude?_fraction (negative : Bool) {digits places rest : List Char}
    (h : IsWhole digits) (hplaces : AreDigits places)
    (hrest : ∀ c ∈ rest.head?, isDigit c = false) :
    readMagnitude? negative (digits ++ '.' :: (places ++ rest)) =
      let whole := extendSignificand 0 0 digits
      let all := extendSignificand whole.1 0 places
      finishNumber? negative all.1 ((digits.length - whole.2 : Nat) - all.2) rest := by
  have hpoint : ∀ c ∈ ('.' :: (places ++ rest)).head?, isDigit c = false := by
    rintro _ ⟨⟩
    rfl
  simp only [readMagnitude?, takeWhile_digits h.1 hpoint, List.drop_left,
    takeWhile_digits hplaces hrest]
  simp [h.1.1, h.not_leading, hplaces.1]

/-- A numeral with an exponent behind its whole part is read as the digits, scaled by the
exponent. -/
theorem readMagnitude?_exponent (negative : Bool) {digits rest : List Char} (h : IsWhole digits) :
    readMagnitude? negative (digits ++ 'e' :: rest) =
      let whole := extendSignificand 0 0 digits
      finishNumber? negative whole.1 (digits.length - whole.2 : Nat) ('e' :: rest) := by
  have hmark : ∀ c ∈ ('e' :: rest).head?, isDigit c = false := by
    rintro _ ⟨⟩
    rfl
  simp only [readMagnitude?, takeWhile_digits h.1 hmark, List.drop_left]
  simp [h.1.1, h.not_leading]

/-- A numeral of digits alone is read as an integer. -/
theorem readMagnitude?_whole (negative : Bool) {digits rest : List Char} (h : IsWhole digits)
    (hrest : Closes rest) :
    readMagnitude? negative (digits ++ rest) =
      let whole := extendSignificand 0 0 digits
      readMagnitude?.readInteger negative whole.1 (digits.length - whole.2) rest := by
  simp only [readMagnitude?, takeWhile_digits h.1 hrest.isDigit, List.drop_left]
  cases rest with
  | nil => simp [h.1.1, h.not_leading]
  | cons c rest =>
    rcases hrest c rfl with rfl | rfl | rfl
    all_goals simp [h.1.1, h.not_leading]

/-- Nothing of the text is needed once the digits of an integer have been read. -/
theorem takes_readInteger (negative : Bool) (significand dropped : Nat) :
    Takes (readMagnitude?.readInteger negative significand dropped) [] := by
  obtain ⟨far, hfar⟩ := takes_finishNumber? negative significand dropped .none
  obtain ⟨near, hnear⟩ := takes_finishNumber? negative significand 0 .none
  unfold readMagnitude?.readInteger
  by_cases hdropped : 0 < dropped
  · exact ⟨far, fun rest hrest => by simpa [hdropped] using hfar rest hrest⟩
  · cases negative with
    | false => exact ⟨some (ofInt significand), fun rest _ => by simp [hdropped]⟩
    | true =>
      by_cases hword : 0 < significand ∧ significand ≤ 0x8000000000000000
      · exact ⟨some (ofInt (-significand)), fun rest _ => by simp [hdropped, hword]⟩
      · exact ⟨near, fun rest hrest => by simpa [hdropped, hword] using hnear rest hrest⟩

/-- An exponent, or none, does not go on with the digits in front of it. -/
theorem IsExponent.append_isDigit {exponent rest : List Char} (h : IsExponent exponent)
    (hrest : Closes rest) : ∀ c ∈ (exponent ++ rest).head?, isDigit c = false := by
  cases h with
  | none => exact hrest.isDigit
  | signed =>
    rintro _ ⟨⟩
    rfl

/-- All of a numeral without a sign is read. -/
theorem takes_readMagnitude? (negative : Bool) {text : List Char} (h : IsMagnitude text) :
    Takes (readMagnitude? negative) text := by
  cases h with
  | @whole digits exponent hdigits hexponent =>
    cases hexponent with
    | none =>
      obtain ⟨result, hresult⟩ := takes_readInteger negative (extendSignificand 0 0 digits).1
        (digits.length - (extendSignificand 0 0 digits).2)
      refine ⟨result, fun rest hrest => ?_⟩
      rw [List.append_nil, readMagnitude?_whole negative hdigits hrest]
      exact hresult rest hrest
    | signed hsign hshift =>
      obtain ⟨result, hresult⟩ := takes_finishNumber? negative (extendSignificand 0 0 digits).1
        (digits.length - (extendSignificand 0 0 digits).2 : Nat) (.signed hsign hshift)
      refine ⟨result, fun rest hrest => ?_⟩
      rw [List.append_assoc, List.cons_append, readMagnitude?_exponent negative hdigits]
      exact hresult rest hrest
  | @fraction digits places exponent hdigits hplaces hexponent =>
    let whole := extendSignificand 0 0 digits
    let all := extendSignificand whole.1 0 places
    obtain ⟨result, hresult⟩ := takes_finishNumber? negative all.1
      ((digits.length - whole.2 : Nat) - all.2) hexponent
    refine ⟨result, fun rest hrest => ?_⟩
    rw [List.append_assoc, List.cons_append, List.append_assoc,
      readMagnitude?_fraction negative hdigits hplaces (hexponent.append_isDigit hrest)]
    exact hresult rest hrest

/-! ## Signs -/

/-- A numeral, with a minus sign or without one. -/
inductive IsNumeral : List Char → Prop where
  /-- Without a sign. -/
  | bare {text : List Char} : IsMagnitude text → IsNumeral text
  /-- With a minus sign. -/
  | minus {text : List Char} : IsMagnitude text → IsNumeral ('-' :: text)

/-- A numeral without a sign starts with a digit. -/
theorem IsMagnitude.head {text : List Char} (h : IsMagnitude text) :
    ∃ c rest, text = c :: rest ∧ isDigit c = true := by
  have hwhole : ∀ {digits : List Char} (rest : List Char), IsWhole digits →
      ∃ c tail, digits ++ rest = c :: tail ∧ isDigit c = true := by
    intro digits rest hdigits
    match digits, hdigits with
    | [], hdigits => exact absurd rfl hdigits.1.1
    | c :: digits, hdigits =>
      exact ⟨c, digits ++ rest, rfl, (Text.isDigit_eq c).trans (hdigits.1.2 c (by simp))⟩
  cases h with
  | whole hdigits => exact hwhole _ hdigits
  | fraction hdigits => exact hwhole _ hdigits

/-- All of a numeral is read. -/
theorem IsNumeral.takes {text : List Char} (h : IsNumeral text) : Takes readNumber? text := by
  cases h with
  | bare h =>
    obtain ⟨result, hresult⟩ := takes_readMagnitude? false h
    refine ⟨result, fun rest hrest => ?_⟩
    rw [← hresult rest hrest]
    obtain ⟨c, tail, rfl, hc⟩ := h.head
    rw [List.cons_append, readNumber?]
    rintro _ ⟨⟩
    cases hc
  | minus h =>
    obtain ⟨result, hresult⟩ := takes_readMagnitude? true h
    exact ⟨result, hresult⟩

/-! ## Integers -/

/-- Digits behind a number do not make it smaller. -/
theorem le_foldDigits (soFar : Nat) (digits : List Char) : soFar ≤ foldDigits soFar digits := by
  induction digits generalizing soFar with
  | nil => exact Nat.le_refl _
  | cons c digits ih => exact Nat.le_trans (by omega) (ih (soFar * 10 + (Text.digit? c).getD 0))

/-- Digits whose number fits a word are all taken. -/
theorem extendSignificand_eq {significand : Nat} (taken : Nat) {digits : List Char}
    (h : foldDigits significand digits < 0x10000000000000000) :
    extendSignificand significand taken digits =
      (foldDigits significand digits, taken + digits.length) := by
  induction digits generalizing significand taken with
  | nil => rfl
  | cons c digits ih =>
    have hnext := Nat.lt_of_le_of_lt (le_foldDigits _ digits) h
    rw [extendSignificand, if_pos hnext, ih (taken + 1) h, List.length_cons]
    simp [foldDigits, Nat.add_assoc, Nat.add_comm 1]

/-- An integer that has been written is read as itself. -/
theorem readNumber?_signedDecimal {n : Int} (h : isWord n = true) {rest : List Char}
    (hrest : Closes rest) : readNumber? (signedDecimal n ++ rest) = some (ofInt n, rest) := by
  have hrange := of_decide_eq_true h
  have hdigits : extendSignificand 0 0 (decimal n.natAbs) =
      (n.natAbs, (decimal n.natAbs).length) := by
    have hall := Text.ofDigits_decimal n.natAbs
    rw [ofDigits] at hall
    rw [extendSignificand_eq 0 (by omega), hall, Nat.zero_add]
  have hread : ∀ negative, readMagnitude? negative (decimal n.natAbs ++ rest) =
      readMagnitude?.readInteger negative n.natAbs 0 rest := by
    intro negative
    rw [readMagnitude?_whole negative (isWhole_decimal _) hrest, hdigits]
    simp
  unfold signedDecimal
  split
  · rename_i hneg
    have hback : -(n.natAbs : Int) = n := by omega
    rw [List.cons_append, readNumber?, hread, readMagnitude?.readInteger, if_neg (by omega),
      if_pos rfl, if_pos (by omega), hback]
  · rename_i hneg
    have hback : (n.natAbs : Int) = n := by omega
    have hbare := (IsMagnitude.whole (isWhole_decimal n.natAbs) .none).head
    rw [List.append_nil] at hbare
    rw [readNumber?, hread, readMagnitude?.readInteger, if_neg (by omega), if_neg (by decide),
      hback]
    obtain ⟨c, tail, hcons, hc⟩ := hbare
    rw [hcons]
    rintro _ ⟨⟩
    cases hc

/-! ## Numbers that have been written -/

/-- A run of zeros holds digits only. -/
theorem isDigit_of_mem_zeros (n : Nat) : ∀ c ∈ List.replicate n '0', c.isDigit = true := by
  intro c hc
  rw [List.eq_of_mem_replicate hc]
  rfl

/-- Digits side by side are digits, if there are any. -/
theorem areDigits_append {digits more : List Char} (h : digits ++ more ≠ [])
    (hdigits : ∀ c ∈ digits, c.isDigit = true) (hmore : ∀ c ∈ more, c.isDigit = true) :
    AreDigits (digits ++ more) :=
  ⟨h, fun c hc => (List.mem_append.mp hc).elim (hdigits c) (hmore c)⟩

theorem areDigits_zero : AreDigits ['0'] :=
  ⟨List.cons_ne_nil _ _, List.forall_mem_singleton.mpr rfl⟩

theorem isWhole_zero : IsWhole ['0'] := ⟨areDigits_zero, fun _ => rfl⟩

theorem isMagnitude_zero : IsMagnitude ['0', '.', '0'] :=
  .fraction isWhole_zero areDigits_zero .none

/-- The first digits of a number are a whole part, with zeros behind them or without. -/
theorem isWhole_take {n k : Nat} (hn : n ≠ 0) (hk : 0 < k) (zeros : Nat) :
    IsWhole ((decimal n).take k ++ List.replicate zeros '0') := by
  have hdigits := areDigits_decimal n
  have hhead : ((decimal n).take k ++ List.replicate zeros '0').head? = (decimal n).head? := by
    rw [List.head?_append, List.head?_take, if_neg (by omega),
      List.head?_eq_some_head hdigits.1, Option.some_or]
  refine ⟨areDigits_append ?_ (fun c hc => hdigits.2 c (List.mem_of_mem_take hc))
    (isDigit_of_mem_zeros zeros), fun hzero => ?_⟩
  · intro hnil
    rw [hnil, List.head?_nil, List.head?_eq_some_head hdigits.1] at hhead
    cases hhead
  · exact absurd (hhead ▸ hzero) (Text.head?_decimal hn)

/-- A single digit is a whole part. -/
theorem isWhole_first (n : Nat) : IsWhole ((decimal n).take 1) := by
  have hdigits := areDigits_decimal n
  refine ⟨⟨?_, fun c hc => hdigits.2 c (List.mem_of_mem_take hc)⟩, fun _ => ?_⟩
  · simpa using hdigits.1
  · have := List.length_pos_iff.mpr hdigits.1
    rw [List.length_take]
    omega

/-- A number written with its point in place is a numeral. -/
theorem isMagnitude_positional {n : Nat} {exponent : Int} (h : n ≠ 0) :
    IsMagnitude (Layout.json.positional (decimal n) exponent) := by
  have hdigits := areDigits_decimal n
  have hlength := List.length_pos_iff.mpr hdigits.1
  unfold Layout.positional
  split
  · have hwhole := isWhole_take h hlength exponent.toNat
    rw [List.take_length] at hwhole
    simpa [Layout.json] using IsMagnitude.fraction hwhole areDigits_zero .none
  · dsimp only
    split
    · rename_i hnegative hplaces
      have hwhole := isWhole_take h (Nat.sub_pos_of_lt hplaces) 0
      have hfraction : AreDigits
          ((decimal n).drop ((decimal n).length - (-exponent).toNat)) := by
        refine ⟨?_, fun c hc => hdigits.2 c (List.mem_of_mem_drop hc)⟩
        rw [ne_eq, List.drop_eq_nil_iff]
        omega
      simpa using IsMagnitude.fraction hwhole hfraction .none
    · have hfraction := areDigits_append (by simp [hdigits.1])
        (isDigit_of_mem_zeros ((-exponent).toNat - (decimal n).length)) hdigits.2
      simpa using IsMagnitude.fraction isWhole_zero hfraction .none

/-- A written power is an exponent. -/
theorem isExponent_signedDecimal (power : Int) : IsExponent
    ('e' :: ((if power < 0 then [] else Layout.json.exponentPlus.toList) ++
      signedDecimal power)) := by
  unfold signedDecimal
  split
  · exact .signed (.inr rfl) (areDigits_decimal _)
  · exact .signed (.inl rfl) (areDigits_decimal _)

/-- A number written with a power of ten is a numeral. -/
theorem isMagnitude_scientific (n : Nat) (power : Int) :
    IsMagnitude (Layout.json.scientific (decimal n) power) := by
  have hwhole := isWhole_first n
  have hexponent := isExponent_signedDecimal power
  unfold Layout.scientific
  cases hfraction : (decimal n).drop 1 with
  | nil => simpa using IsMagnitude.whole hwhole hexponent
  | cons c places =>
    have hplaces : AreDigits (c :: places) := by
      rw [← hfraction]
      refine ⟨by simp [hfraction], fun c hc => (areDigits_decimal n).2 c (List.mem_of_mem_drop hc)⟩
    simpa using IsMagnitude.fraction hwhole hplaces hexponent

/-- A number that is not zero is written as a numeral. -/
theorem isMagnitude_magnitude (bits : Nat) : IsMagnitude (Layout.json.magnitude bits) := by
  unfold Layout.magnitude
  rcases Binary.double.shortest_cases Layout.json.halfway bits with hzero | hdigits
  · rw [hzero]
    exact isMagnitude_zero
  · dsimp only
    split
    · exact isMagnitude_positional hdigits
    · exact isMagnitude_scientific _ _

/-- What is written for a number is a numeral. -/
theorem Number.isNumeral_write (n : Number) : IsNumeral n.write.toList := by
  cases n with
  | int n _ =>
    have hmagnitude := IsMagnitude.whole (isWhole_decimal n.natAbs) .none
    rw [List.append_nil] at hmagnitude
    rw [Number.write, String.toList_ofList]
    unfold signedDecimal
    split
    · exact .minus hmagnitude
    · exact .bare hmagnitude
  | float x hfinite =>
    have hsign : x.isNaN = false ∧ x.isInfinite = false := by
      have hlt := of_decide_eq_true hfinite
      exact ⟨decide_eq_false (by omega), beq_false_of_ne (by omega)⟩
    have hmagnitude := isMagnitude_magnitude x.unsigned
    rw [Number.write, Double.write, hsign.1, hsign.2]
    cases x.isNegative with
    | false =>
      cases x.isZero with
      | false => simpa using IsNumeral.bare hmagnitude
      | true => simpa [Layout.json] using IsNumeral.bare isMagnitude_zero
    | true =>
      cases x.isZero with
      | false => simpa using IsNumeral.minus hmagnitude
      | true => simpa [Layout.json] using IsNumeral.minus isMagnitude_zero

end SqlCompose.Json
