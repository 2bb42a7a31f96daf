import SqlCompose.Postgres.Binding
import SqlCompose.Predicate.Reading
import SqlCompose.Proofs.Binary.Double
import SqlCompose.Proofs.Binary.Numeral
import SqlCompose.Proofs.Postgres.Wire

/-!
# Integers as parameters

`Value.Denotes` says which integer a value stands for. A parameter of an integer type takes exactly
the values that denote an integer of its range, with one exception: of eight bytes, it also takes
every floating-point number that is an integer out of range, and brings it to the end of the range
(`bind_integer`).
-/

namespace SqlCompose

open Postgres (FitsBytes writeInt PgType encodeInteger?)

/-- Whether a value denotes an integer. -/
inductive Value.Denotes : Value → Int → Prop where
  /-- An integer denotes itself. -/
  | int (i : Int64) : Denotes (.int i) i.toInt
  /-- Truth values denote zero and one. -/
  | bool (b : Bool) : Denotes (.bool b) (if b then 1 else 0)
  /-- A floating-point number denotes its exact value. -/
  | float {x : Double} {n : Int} : x.isFinite = true → x.value = n → Denotes (.float x) n
  /-- A text denotes the integer that it spells between blanks. -/
  | text {s : String} {n : Int} : Text.Spells (Text.trim s.toList) n → Denotes (.text s) n

/-- The end of the range of sixty-four bits that an integer out of range comes to. -/
def Value.Saturates (v : Value) (n : Int) : Prop :=
  ∃ x m, v = .float x ∧ v.Denotes m ∧
    (m < -0x8000000000000000 ∧ n = -0x8000000000000000 ∨
      0x8000000000000000 ≤ m ∧ n = 0x7FFFFFFFFFFFFFFF)

/-! ## Values as words of sixty-four bits -/

/-- The range of eight bytes. -/
theorem fitsBytes_eight {n : Int} :
    FitsBytes 8 n ↔ -0x8000000000000000 ≤ n ∧ n < 0x8000000000000000 := by
  unfold FitsBytes
  omega

/-- Every signed word fits eight bytes. -/
theorem fitsBytes_toInt (i : Int64) : FitsBytes 8 i.toInt :=
  fitsBytes_eight.mpr ⟨i.le_toInt, i.toInt_lt⟩

/-- A number that fits eight bytes is the value of the word made from it. -/
theorem toInt_ofInt {n : Int} (h : FitsBytes 8 n) : (Int64.ofInt n).toInt = n :=
  Int64.toInt_ofInt_of_le (fitsBytes_eight.mp h).1 (fitsBytes_eight.mp h).2

/-- A number has a signed word when it is the value of one. -/
theorem toInt?_eq_some {n : Int} {i : Int64} : toInt64? n = some i ↔ i.toInt = n := by
  unfold toInt64?
  constructor
  · intro h
    split at h
    · rename_i hfits
      rw [← Option.some.inj h, toInt_ofInt (fitsBytes_eight.mpr hfits)]
    · cases h
  · rintro rfl
    rw [if_pos (fitsBytes_eight.mp (fitsBytes_toInt i)), Int64.ofInt_toInt]

/-- A number is brought into the range of words at the end that it is beyond. -/
theorem toInt_clampInt64 (n : Int) : (clampInt64 n).toInt =
    if n < -0x8000000000000000 then -0x8000000000000000
    else if 0x8000000000000000 ≤ n then 0x7FFFFFFFFFFFFFFF else n := by
  unfold clampInt64
  split
  · rfl
  · split
    · rfl
    · exact toInt_ofInt (fitsBytes_eight.mpr (by omega))

/-- A text is read as a word when it spells the word's value. -/
theorem readInt64?_eq_some {text : List Char} {i : Int64} :
    readInt64? text = some i ↔ Text.Spells text i.toInt := by
  simp [readInt64?, Option.bind_eq_some_iff, Text.readInt?_eq_some, toInt?_eq_some]

/-- The integers that a value denotes, by its variant. -/
theorem denotes_iff {v : Value} {n : Int} : v.Denotes n ↔
    match v with
    | .int i => i.toInt = n
    | .bool b => (if b then 1 else 0) = n
    | .float x => x.toInt? = some n
    | .text s => Text.Spells (Text.trim s.toList) n
    | _ => False := by
  constructor
  · intro h
    cases h with
    | int i => rfl
    | bool b => rfl
    | float hfinite hvalue => exact Double.toInt?_eq_some.mpr ⟨hfinite, hvalue⟩
    | text hs => exact hs
  · intro h
    cases v with
    | int i => exact h ▸ .int i
    | bool b => exact h ▸ .bool b
    | float x =>
      obtain ⟨hfinite, hvalue⟩ := Double.toInt?_eq_some.mp h
      exact .float hfinite hvalue
    | text s => exact .text h
    | _ => cases h

/-- Only a floating-point number beyond the words comes to an end of their range. -/
theorem saturates_iff {v : Value} {n : Int} : v.Saturates n ↔
    match v with
    | .float x => ∃ m, x.toInt? = some m ∧ (m < -0x8000000000000000 ∧ n = -0x8000000000000000 ∨
        0x8000000000000000 ≤ m ∧ n = 0x7FFFFFFFFFFFFFFF)
    | _ => False := by
  unfold Value.Saturates
  cases v <;> simp [denotes_iff]

/-- A value is read as an integer if it denotes it, or denotes one that is brought to it. -/
theorem asInt64?_eq_some {v : Value} {i : Int64} :
    v.asInt64? = some i ↔ v.Denotes i.toInt ∨ v.Saturates i.toInt := by
  rw [denotes_iff, saturates_iff]
  cases v with
  | float x =>
    rw [Value.asInt64?, Option.map_eq_some_iff]
    have hi := fitsBytes_eight.mp (fitsBytes_toInt i)
    simp only [← Int64.toInt_inj, toInt_clampInt64]
    constructor
    · rintro ⟨m, hm, h⟩
      split at h
      · exact .inr ⟨m, hm, .inl ⟨by assumption, h.symm⟩⟩
      · split at h
        · exact .inr ⟨m, hm, .inr ⟨by assumption, h.symm⟩⟩
        · exact .inl (h ▸ hm)
    · rintro (hm | ⟨m, hm, ⟨hlow, hn⟩ | ⟨hhigh, hn⟩⟩)
      · exact ⟨_, hm, by rw [if_neg (by omega), if_neg (by omega)]⟩
      · exact ⟨m, hm, by rw [if_pos hlow, hn]⟩
      · exact ⟨m, hm, by rw [if_neg (by omega), if_pos hhigh, hn]⟩
  | int j => simp [Value.asInt64?, Int64.toInt_inj]
  | bool b => cases b <;> simp [Value.asInt64?, ← Int64.toInt_inj]
  | text s => simp [Value.asInt64?, readInt64?_eq_some]
  | _ => simp [Value.asInt64?]

namespace Postgres

/-! ## Parameters of an integer type -/

/-- The integer types with the number of their bytes. -/
def integerTypes : List (PgType × Nat) := [(.int2, 2), (.int4, 4), (.int8, 8)]

/-- Whether a parameter of an integer type takes a value as an integer: the value denotes it and it
is in range, or the type has eight bytes and the value is brought into its range. -/
def PgType.TakesAs (t : PgType) (width : Nat) (v : Value) (n : Int) : Prop :=
  v.Denotes n ∧ FitsBytes width n ∨ t = .int8 ∧ v.Saturates n

/-- A value is written as an integer when it is one that fits the bytes. -/
theorem encodeInteger?_eq_some {width : Nat} {v : Value} {bytes : List UInt8} :
    encodeInteger? width v = some bytes ↔
      ∃ i, v.asInt64? = some i ∧ FitsBytes width i.toInt ∧ bytes = writeInt width i.toInt := by
  unfold encodeInteger?
  simp only [bind, Option.bind_eq_some_iff]
  refine exists_congr fun i => and_congr_right fun _ => ?_
  constructor
  · intro h
    split at h
    · rename_i hfits
      exact ⟨hfits, (Option.some.inj h).symm⟩
    · cases h
  · rintro ⟨hfits, rfl⟩
    exact if_pos hfits

variable {t : PgType} {width : Nat} {v : Value}

/-- The integer types write values as integers of their width. -/
theorem write?_of_integer (ht : (t, width) ∈ integerTypes) : t.write? v = encodeInteger? width v := by
  simp only [integerTypes, List.mem_cons, Prod.mk.injEq, List.not_mem_nil, or_false] at ht
  rcases ht with ⟨rfl, rfl⟩ | ⟨rfl, rfl⟩ | ⟨rfl, rfl⟩ <;> rfl

/-- The integer types can be bound. -/
theorem isBindable_of_integer (ht : (t, width) ∈ integerTypes) : t.isBindable = true := by
  simp only [integerTypes, List.mem_cons, Prod.mk.injEq, List.not_mem_nil, or_false] at ht
  rcases ht with ⟨rfl, rfl⟩ | ⟨rfl, rfl⟩ | ⟨rfl, rfl⟩ <;> rfl

/-- A parameter takes a value as an integer when the value is read as a word that fits the bytes. -/
theorem takesAs_iff (ht : (t, width) ∈ integerTypes) {n : Int} : t.TakesAs width v n ↔
    ∃ i, v.asInt64? = some i ∧ FitsBytes width i.toInt ∧ i.toInt = n := by
  simp only [integerTypes, List.mem_cons, Prod.mk.injEq, List.not_mem_nil, or_false] at ht
  constructor
  · rintro (⟨hdenotes, hfits⟩ | ⟨rfl, x, m, hv, hm, hend⟩)
    · have hword : FitsBytes 8 n := by
        rw [fitsBytes_eight]
        rcases ht with ⟨-, rfl⟩ | ⟨-, rfl⟩ | ⟨-, rfl⟩ <;> unfold FitsBytes at hfits <;> omega
      refine ⟨.ofInt n, asInt64?_eq_some.mpr (.inl ?_), ?_, toInt_ofInt hword⟩
      · rwa [toInt_ofInt hword]
      · rwa [toInt_ofInt hword]
    · obtain rfl : width = 8 := by simpa using ht
      have hword : FitsBytes 8 n := fitsBytes_eight.mpr (by omega)
      refine ⟨.ofInt n, asInt64?_eq_some.mpr (.inr ?_), ?_, toInt_ofInt hword⟩
      · rw [toInt_ofInt hword]
        exact ⟨x, m, hv, hm, hend⟩
      · rwa [toInt_ofInt hword]
  · rintro ⟨i, hi, hfits, rfl⟩
    rcases asInt64?_eq_some.mp hi with hdenotes | ⟨x, m, hv, hm, hend⟩
    · exact .inl ⟨hdenotes, hfits⟩
    · right
      rcases ht with ⟨-, rfl⟩ | ⟨-, rfl⟩ | ⟨rfl, -⟩
      · unfold FitsBytes at hfits
        omega
      · unfold FitsBytes at hfits
        omega
      · exact ⟨rfl, x, m, hv, hm, hend⟩

/-- The bytes written for a value are those that are read as the integer it is taken as. -/
theorem encodeInteger?_eq_some_iff (ht : (t, width) ∈ integerTypes) {bytes : List UInt8} :
    encodeInteger? width v = some bytes ↔
      ∃ n, t.TakesAs width v n ∧ readInt? width bytes = some n := by
  simp only [encodeInteger?_eq_some, takesAs_iff ht, readInt?_eq_some]
  constructor
  · rintro ⟨i, hi, hfits, rfl⟩
    exact ⟨_, ⟨i, hi, hfits, rfl⟩, hfits, rfl⟩
  · rintro ⟨_, ⟨i, hi, hfits, rfl⟩, -, rfl⟩
    exact ⟨i, hi, hfits, rfl⟩

/-! ## Numerals of predicates -/

/-- A numeral that spells an integer keeps it if a word of sixty-four bits holds it, and becomes the
nearest floating-point number otherwise. -/
theorem numberValue_of_spells {digits : String} {n : Int} (h : Text.Spells digits.toList n) :
    (FitsBytes 8 n → Predicate.numberValue digits = .ok (.int (.ofInt n))) ∧
      (¬FitsBytes 8 n → Predicate.numberValue digits =
        .ok (.float (.ofDecimal (decide (n < 0)) n.natAbs 0))) := by
  constructor
  · intro hfits
    have hread : readInt64? digits.toList = some (.ofInt n) := by
      rw [readInt64?_eq_some, toInt_ofInt hfits]
      exact h
    rw [Predicate.numberValue, hread]
  · intro hfits
    have hread : readInt64? digits.toList = none := by
      cases hread : readInt64? digits.toList with
      | none => rfl
      | some i =>
        have hn := (Text.readInt?_eq_some.mpr h).symm.trans
          (Text.readInt?_eq_some.mpr (readInt64?_eq_some.mp hread))
        exact absurd (Option.some.inj hn ▸ fitsBytes_toInt i) hfits
    obtain ⟨negative, hdouble, hsign⟩ := Double.read?_of_spells h
    have hnonzero : n ≠ 0 := by
      rintro rfl
      exact hfits (fitsBytes_eight.mpr (by omega))
    rw [Predicate.numberValue, hread, hdouble, hsign hnonzero]

/-! ## Binding -/

/-- The null value is bound as no bytes. -/
theorem bind_null (ht : (t, width) ∈ integerTypes) : t.bind .null = .ok none := by
  rw [PgType.bind, isBindable_of_integer ht]
  rfl

/-- Any other value is bound as the bytes it is written as, or refused. -/
theorem bind_of_ne_null (ht : (t, width) ∈ integerTypes) (hv : v ≠ .null) :
    t.bind v = match encodeInteger? width v with
      | some bytes => .ok (some bytes)
      | none => .error (.unbindable (.incompatible v t.name)) := by
  have hnull : v.isNull = false := by
    rw [Bool.eq_false_iff, Ne, Value.isNull_iff]
    exact hv
  rw [PgType.bind, isBindable_of_integer ht, hnull, write?_of_integer ht]
  rfl

/-- The null value is taken as no integer. -/
theorem not_takesAs_null {n : Int} : ¬t.TakesAs width .null n := by
  rintro (⟨h, -⟩ | ⟨-, h⟩)
  · exact denotes_iff.mp h
  · exact saturates_iff.mp h

/-- A parameter of an integer type is null for null and for nothing else. It goes as an integer if
and only if the type takes the value as that integer, and every other value is refused. -/
theorem bind_integer (ht : (t, width) ∈ integerTypes) (v : Value) :
    (t.bind v = .ok none ↔ v = .null) ∧
    (∀ bytes, t.bind v = .ok (some bytes) ↔
      ∃ n, t.TakesAs width v n ∧ readInt? width bytes = some n) ∧
    (∀ fault, t.bind v = .error fault ↔
      v ≠ .null ∧ (∀ n, ¬t.TakesAs width v n) ∧
        fault = .unbindable (.incompatible v t.name)) ∧
    ∀ (digits : String) (n : Int), Text.Spells digits.toList n →
      (FitsBytes 8 n → Predicate.numberValue digits = .ok (.int (.ofInt n))) ∧
      (¬FitsBytes 8 n → Predicate.numberValue digits =
        .ok (.float (.ofDecimal (decide (n < 0)) n.natAbs 0))) := by
  refine ⟨?_, fun bytes => ?_, fun fault => ?_, fun digits n h => numberValue_of_spells h⟩
  all_goals rcases eq_or_ne v .null with rfl | hv
  · exact iff_of_true (bind_null ht) rfl
  · rw [bind_of_ne_null ht hv]
    refine iff_of_false (fun h => ?_) hv
    split at h <;> cases h
  · rw [bind_null ht]
    exact iff_of_false nofun fun ⟨n, hn, _⟩ => not_takesAs_null hn
  · rw [bind_of_ne_null ht hv, ← encodeInteger?_eq_some_iff ht]
    cases encodeInteger? width v <;> simp
  · rw [bind_null ht]
    exact iff_of_false nofun fun h => h.1 rfl
  · rw [bind_of_ne_null ht hv]
    cases hencode : encodeInteger? width v with
    | none =>
      have hnone : ∀ n, ¬t.TakesAs width v n := by
        intro n hn
        obtain ⟨i, hi, hfits, -⟩ := (takesAs_iff ht).mp hn
        cases hencode.symm.trans (encodeInteger?_eq_some.mpr ⟨i, hi, hfits, rfl⟩)
      simp [hv, hnone, eq_comm]
    | some bytes =>
      obtain ⟨n, hn, -⟩ := (encodeInteger?_eq_some_iff ht).mp hencode
      exact iff_of_false nofun fun h => h.2.1 n hn

/-- A text with blanks around a number, bound to two bytes. -/
theorem bind_integer_minusSeven : (PgType.int2, 2) ∈ integerTypes ∧
    PgType.int2.bind (.text " -7 ") = .ok (some (writeInt 2 (-7))) := by
  have ht : (PgType.int2, 2) ∈ integerTypes := by decide
  have hfits : FitsBytes 2 (-7) := by
    unfold FitsBytes
    omega
  have hspells : Text.Spells (Text.trim " -7 ".toList) (-7) :=
    Text.readInt?_eq_some.mp rfl
  refine ⟨ht, ((bind_integer ht _).2.1 _).mpr ⟨-7, .inl ⟨.text hspells, hfits⟩, ?_⟩⟩
  exact readInt?_eq_some.mpr ⟨hfits, rfl⟩

/-- The numeral 9223372036854775808 of a predicate becomes a floating-point number of that value,
which no word of eight bytes holds; as a parameter it goes as 9223372036854775807. -/
theorem bind_beyond_range :
    Predicate.numberValue "9223372036854775808" = .ok (.float ⟨0x43E0000000000000⟩) ∧
    (Value.float ⟨0x43E0000000000000⟩).Denotes 9223372036854775808 ∧
    ¬FitsBytes 8 9223372036854775808 ∧
    PgType.int8.bind (.float ⟨0x43E0000000000000⟩) =
      .ok (some [127, 255, 255, 255, 255, 255, 255, 255]) ∧
    readInt? 8 [127, 255, 255, 255, 255, 255, 255, 255] = some 9223372036854775807 := by
  have hspells : Text.Spells "9223372036854775808".toList 9223372036854775808 :=
    Text.readInt?_eq_some.mp rfl
  have hrange : ¬FitsBytes 8 9223372036854775808 := by
    rw [fitsBytes_eight]
    omega
  have hdouble : Double.ofDecimal (decide ((9223372036854775808 : Int) < 0))
      (9223372036854775808 : Int).natAbs 0 = ⟨0x43E0000000000000⟩ := rfl
  have hencode : encodeInteger? 8 (.float ⟨0x43E0000000000000⟩) =
      some [127, 255, 255, 255, 255, 255, 255, 255] := by decide
  have ht : (PgType.int8, 8) ∈ integerTypes := by decide
  have hvalue : Value.float ⟨0x43E0000000000000⟩ ≠ .null := nofun
  refine ⟨?_, denotes_iff.mpr (by decide), hrange, ?_, by decide⟩
  · rw [(numberValue_of_spells hspells).2 hrange, hdouble]
  · rw [bind_of_ne_null ht hvalue, hencode]

end Postgres

end SqlCompose
