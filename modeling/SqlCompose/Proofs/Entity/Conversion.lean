import SqlCompose.Entity.Basic
import SqlCompose.Proofs.Calendar.Reading
import SqlCompose.Proofs.Json.RoundTrip
import SqlCompose.Value.Json

/-!
# Values of columns read from JSON

A value is rendered as JSON by its variant, and a column reads JSON by its kind. What is read is the
value as it is shown (`valueOfJson_toJson`): every value that the column holds comes back, except for
a moment in a leap second within a minute, which is shown as the second that follows. A column holds
the values of the variant that belongs to its kind, apart from numbers that are not finite and the
null document, which JSON does not tell apart from a missing value.
-/

namespace SqlCompose

/-! ## Values of a kind -/

/-- Whether a value is one that columns of a kind hold. -/
inductive ColumnKind.Holds : ColumnKind → Value → Prop where
  /-- Truth values. -/
  | bool (b : Bool) : Holds .bool (.bool b)
  /-- Integers. -/
  | int (i : Int64) : Holds .int (.int i)
  /-- Finite numbers. -/
  | float {x : Double} : x.isFinite = true → Holds .float (.float x)
  /-- Texts. -/
  | text (s : String) : Holds .text (.text s)
  /-- Strings of bytes. -/
  | bytes (b : List UInt8) : Holds .bytes (.bytes b)
  /-- Dates. -/
  | date (d : Calendar.Date) : Holds .date (.date d)
  /-- Moments of a local clock. -/
  | dateTime (t : Calendar.DateTime) : Holds .dateTime (.dateTime t)
  /-- Moments of the universal clock. -/
  | timestamp (t : Calendar.DateTime) : Holds .timestamp (.timestamp t)
  /-- Documents other than null. -/
  | json {j : Json} : j ≠ .null → Holds .json (.json j)

/-- The kind of column that a variant of values belongs to. -/
def Value.kind? : Value → Option ColumnKind
  | .bool _ => some .bool
  | .int _ => some .int
  | .float _ => some .float
  | .text _ => some .text
  | .bytes _ => some .bytes
  | .date _ => some .date
  | .dateTime _ => some .dateTime
  | .timestamp _ => some .timestamp
  | .json _ => some .json
  | .null | .list _ | .record _ => none

/-- A value of the kind's variant is held by the kind unless it is rendered as null. -/
theorem ColumnKind.Holds.of_kind? {kind : ColumnKind} {v : Value} (hkind : v.kind? = some kind)
    (hnull : v.toJson ≠ .null) : kind.Holds v := by
  cases v with
  | null | list items | record fields => cases hkind
  | bool b => cases hkind; exact .bool b
  | int i => cases hkind; exact .int i
  | text s => cases hkind; exact .text s
  | bytes b => cases hkind; exact .bytes b
  | date d => cases hkind; exact .date d
  | dateTime t => cases hkind; exact .dateTime t
  | timestamp t => cases hkind; exact .timestamp t
  | json j => cases hkind; exact .json hnull
  | float x =>
    cases hkind
    by_cases hx : x.isFinite = true
    · exact .float hx
    · exact absurd (dif_neg hx) hnull

/-! ## Values as they are shown -/

namespace Value

/-- The moment that a value is. -/
def moment? : Value → Option Calendar.DateTime
  | .dateTime t | .timestamp t => some t
  | _ => none

/-- A value as its rendering shows it. -/
def shown : Value → Value
  | .dateTime t => .dateTime t.shown
  | .timestamp t => .timestamp t.shown
  | v => v

/-- Only moments in leap seconds that do not close a minute are shown as other values. -/
theorem shown_eq_self {v : Value} : v.shown = v ↔
    ∀ t, v.moment? = some t → t.clock.inLeapSecond = true → t.clock.second = 59 := by
  cases v with
  | dateTime t | timestamp t => simp [shown, moment?, Calendar.DateTime.shown_eq_self]
  | null | bool | int | float | text | bytes | date | json | list | record =>
    simp [shown, moment?]

end Value

/-! ## Numbers and bytes -/

namespace Json

/-- An integer put into a document is taken out as it was. -/
theorem asInt64?_ofInt64 (i : Int64) : (ofInt64 i).asInt64? = some i := by
  have hrange : i.toInt < 0x8000000000000000 := i.toInt_lt
  rw [ofInt64, asInt64?, Number.toInt64?, if_pos hrange, Int64.ofInt_toInt]

/-- A finite double put into a document is taken out as it was. -/
theorem asDouble?_ofDouble {x : Double} (h : x.isFinite = true) :
    (ofDouble x).asDouble? = some x := by
  rw [ofDouble_eq h]
  rfl

/-- A byte put into a document is taken out as it was. -/
theorem decodeByte_ofInt (byte : UInt8) : decodeByte (ofInt byte.toNat) = .ok byte := by
  have hbyte := byte.toNat_lt
  have hword : isWord (byte.toNat : Int) = true := by
    simp only [isWord, decide_eq_true_eq]
    omega
  rw [ofInt, dif_pos hword, decodeByte, if_pos (by omega), Int.toNat_natCast, UInt8.ofNat_toNat]

/-- A string of bytes put into a document as an array of numbers is taken out as it was. -/
theorem decodeBytes_array (b : List UInt8) :
    decodeBytes (.array (b.map fun byte => ofInt byte.toNat)) = .ok b := by
  rw [decodeBytes]
  induction b with
  | nil => rfl
  | cons byte b ih =>
    rw [List.map_cons, List.mapM_cons, decodeByte_ofInt, ih]
    rfl

end Json

/-! ## Columns -/

namespace Column

variable {c : Column} {json : Json} {v : Value}

/-- A conversion succeeds with a value when the document offers that value for the column. -/
theorem expect_eq_ok {value : Option Value} : c.expect json value = .ok v ↔ value = some v := by
  cases value <;> simp [expect]

/-- Every column takes the document's null as the null value. -/
theorem valueOfJson_null (c : Column) : c.valueOfJson .null = .ok .null := rfl

/-- What a column reads is null or of the variant of its kind. -/
theorem kind?_of_valueOfJson (h : c.valueOfJson json = .ok v) :
    v = .null ∨ v.kind? = some c.kind := by
  rw [valueOfJson] at h
  split at h
  · cases h
    exact .inl rfl
  · right
    cases hkind : c.kind with
    | text =>
      rw [hkind] at h
      cases h
      rfl
    | json =>
      rw [hkind] at h
      cases h
      rfl
    | bytes =>
      rw [hkind] at h
      dsimp only at h
      split at h <;> cases h
      rfl
    | bool | int | float | date | dateTime | timestamp =>
      rw [hkind] at h
      obtain ⟨x, -, rfl⟩ := Option.map_eq_some_iff.mp (expect_eq_ok.mp h)
      rfl

/-- A value that a column holds is read from its own rendering as it is shown. -/
theorem valueOfJson_of_holds (h : c.kind.Holds v) : c.valueOfJson v.toJson = .ok v.shown := by
  generalize hkind : c.kind = kind at h
  cases h with
  | bool b =>
    simp [valueOfJson, hkind, Value.toJson, Json.isNull, Json.asBool?, expect, Value.shown]
  | int i =>
    have hnull : (Json.ofInt64 i).isNull = false := rfl
    simp [valueOfJson, hkind, Value.toJson, hnull, Json.asInt64?_ofInt64, expect,
      Value.shown]
  | float hx =>
    have hread := Json.asDouble?_ofDouble hx
    rw [Json.ofDouble_eq hx] at hread
    simp [valueOfJson, hkind, Value.toJson, Json.ofDouble_eq hx, Json.isNull, hread, expect,
      Value.shown]
  | text s => simp [valueOfJson, hkind, Value.toJson, Json.isNull, Json.asString?, Value.shown]
  | bytes b =>
    simp [valueOfJson, hkind, Value.toJson, Json.isNull, Json.decodeBytes_array, Value.shown]
  | date d => simp [valueOfJson, hkind, Value.toJson, Json.isNull, Json.asString?,
      Calendar.Date.read?_write, expect, Value.shown]
  | dateTime t => simp [valueOfJson, hkind, Value.toJson, Json.isNull, Json.asString?,
      Calendar.DateTime.read?_write, expect, Value.shown]
  | timestamp t =>
    have hread : Calendar.DateTime.readUniversal? (Value.universalText t) = some t.shown :=
      Calendar.DateTime.readUniversal?_write t
    simp [valueOfJson, hkind, Value.toJson, Json.isNull, Json.asString?, hread, expect, Value.shown]
  | @json j hj =>
    have hnull : j.isNull = false := by
      cases j with
      | null => exact absurd rfl hj
      | _ => rfl
    simp [valueOfJson, hkind, Value.toJson, hnull, Value.shown]

end Column

/-- JSON null is read as null by every column, and a value that a column holds is read from its own
rendering as it is shown. So a value is read as itself if and only if it is null or the column holds
it and, should it be a moment in a leap second, this leap second closes a minute. -/
theorem valueOfJson_toJson (c : Column) (v : Value) :
    c.valueOfJson .null = .ok .null ∧
      (c.kind.Holds v → c.valueOfJson v.toJson = .ok v.shown) ∧
      (c.valueOfJson v.toJson = .ok v ↔ v = .null ∨ c.kind.Holds v ∧
        ∀ t, v.moment? = some t → t.clock.inLeapSecond = true → t.clock.second = 59) := by
  refine ⟨c.valueOfJson_null, Column.valueOfJson_of_holds, ?_⟩
  rw [← Value.shown_eq_self]
  constructor
  · intro h
    by_cases hnull : v.toJson = .null
    · rw [hnull, Column.valueOfJson_null] at h
      exact .inl (Except.ok.inj h).symm
    · refine (Column.kind?_of_valueOfJson h).imp_right fun hkind => ?_
      have hholds : c.kind.Holds v := .of_kind? hkind hnull
      exact ⟨hholds, Except.ok.inj ((Column.valueOfJson_of_holds hholds).symm.trans h)⟩
  · rintro (rfl | ⟨hholds, hshown⟩)
    · exact c.valueOfJson_null
    · rw [Column.valueOfJson_of_holds hholds, hshown]

/-- A moment a third of a second into a leap second that follows the second 4 of a minute. -/
def leapWithinMinute : Calendar.DateTime :=
  ⟨⟨2015, 6, 30, by decide⟩, ⟨23, 56, 4, 1333333333, by decide⟩⟩

/-- The moment a third of a second into the second 5 of that minute. -/
def secondWithinMinute : Calendar.DateTime :=
  ⟨⟨2015, 6, 30, by decide⟩, ⟨23, 56, 5, 333333333, by decide⟩⟩

/-- A column of moments holds the first of them, writes it as the second, and reads that. -/
theorem leapSecond_becomes_next :
    (ColumnKind.dateTime).Holds (.dateTime leapWithinMinute) ∧
      (Value.dateTime leapWithinMinute).toJson = .string "2015-06-30T23:56:05.333333333" ∧
      Column.valueOfJson ⟨"at", "at", .dateTime, false, false⟩
        (Value.dateTime leapWithinMinute).toJson = .ok (.dateTime secondWithinMinute) ∧
      secondWithinMinute ≠ leapWithinMinute := by
  refine ⟨.dateTime _, by rfl, ?_, by decide⟩
  have hshown : (Value.dateTime leapWithinMinute).shown = .dateTime secondWithinMinute := by rfl
  rw [← hshown]
  exact Column.valueOfJson_of_holds (.dateTime leapWithinMinute)

end SqlCompose
