import SqlCompose.Postgres.Binding
import SqlCompose.Proofs.Json.RoundTrip
import SqlCompose.Proofs.Postgres.Cell
import SqlCompose.Proofs.Postgres.Integer

/-!
# Cells that go back as parameters

What is read from a cell can be bound to a parameter of the cell's type, and is read from the bytes
of the parameter again (`bindAll_cell`). There are two exceptions. Five types can be read but not
bound. And a JSON document comes back only as far as its floating-point numbers do.
-/

namespace SqlCompose

/-! ## What comes back -/

/-- What becomes of a value that goes as a parameter and is read again: the numbers of a JSON
document are read from their own texts, and a document with a number that cannot be read is lost. -/
def Value.reread : Value → Value
  | .json j => (j.reread.map Value.json).getD .null
  | v => v

/-- The floating-point numbers in a JSON document. -/
def Value.documentFloats : Value → List Double
  | .json j => j.floats
  | _ => []

/-- A value comes back as it was when each floating-point number in its document does. -/
theorem Value.reread_eq_self (v : Value) :
    v.reread = v ↔ ∀ x ∈ v.documentFloats, x.IsReread := by
  cases v with
  | json j =>
    rw [documentFloats, ← Json.reread_eq_some, reread]
    cases j.reread <;> simp
  | _ => simp [reread, documentFloats]

/-- The text of a floating-point number alone is read as it. -/
theorem Json.read?_eq_ofDouble {s : String} {x : Double}
    (h : (read? s).bind asFloat? = some x) : read? s = some (.ofDouble x) := by
  obtain ⟨j, hread, hfloat⟩ := Option.bind_eq_some_iff.mp h
  rw [hread, (asFloat?_eq_some.mp hfloat).2]

namespace Postgres

/-- The types of the cells that can be read but not bound. -/
def readOnlyTypes : List PgType := .oid :: ("citext" :: labelTypes).map .other

variable {t : PgType} {bytes : List UInt8} {v : Value}

/-- The types of cells that can be read are bindable, save the five. -/
theorem PgType.Carries.isBindable (h : t.Carries bytes v) :
    t.isBindable = true ↔ t ∉ readOnlyTypes := by
  cases h with
  | text s htextual => cases t <;> first | decide | cases htextual
  | labels s hname => simp [PgType.isBindable, readOnlyTypes, hname]
  | _ => decide

/-- A cell whose bytes carry a value is read as that value. -/
theorem PgType.Carries.cell (h : t.Carries bytes v) : t.cell (some bytes) = v := by
  rw [PgType.cell, Option.bind_some, h.read?, Option.getD_some]

/-- An integer of at most eight bytes is encoded as it came. -/
theorem encodeInteger?_ofInt {width : Nat} {n : Int} (hwidth : width ≤ 8) (h : FitsBytes width n) :
    encodeInteger? width (.int (.ofInt n)) = some (writeInt width n) := by
  have hword : FitsBytes 8 n := by
    have hrange : ((256 ^ width : Nat) : Int) ≤ (256 ^ 8 : Nat) :=
      Int.ofNat_le.mpr (Nat.pow_le_pow_right (by decide) hwidth)
    unfold FitsBytes at *
    push_cast at *
    omega
  rw [encodeInteger?_eq_some]
  refine ⟨.ofInt n, rfl, ?_⟩
  rw [toInt_ofInt hword]
  exact ⟨h, rfl⟩

/-- A moment is written as the microseconds it has been read from. -/
theorem IsMoment.toMicros {micros : Int} {t : Calendar.DateTime} (h : IsMoment micros t) :
    toMicros t = micros := by
  rw [Postgres.toMicros, h.1, add_sub_cancel_left, Int.mul_tdiv_cancel _ (by decide)]

/-- Text types write a text as its encoding. -/
theorem PgType.write?_text (s : String) (h : t.isTextual = true) :
    t.write? (.text s) = some (Utf8.encode s) := by
  cases t <;> first | (cases h; done) | rfl

/-- The bytes of a value, and what they carry. -/
theorem PgType.Carries.write? (h : t.Carries bytes v) (hbindable : t.isBindable = true) :
    ∃ back, t.write? v = some back ∧ t.cell (some back) = v.reread := by
  cases h with
  | bool byte =>
    refine ⟨_, rfl, ?_⟩
    cases byte != 0 <;> rfl
  | int2 hn => exact ⟨_, encodeInteger?_ofInt (by decide) hn, (Carries.int2 hn).cell⟩
  | int4 hn => exact ⟨_, encodeInteger?_ofInt (by decide) hn, (Carries.int4 hn).cell⟩
  | int8 hn => exact ⟨_, encodeInteger?_ofInt (by decide) hn, (Carries.int8 hn).cell⟩
  | oid => cases hbindable
  | float4 bits =>
    refine ⟨_, rfl, ?_⟩
    rw [(Carries.float4 (Double.ofSingle bits).toSingle).cell, Double.ofSingle_toSingle_ofSingle]
    rfl
  | float8 x => exact ⟨_, rfl, (Carries.float8 x).cell⟩
  | text s htextual =>
    exact ⟨_, write?_text s htextual, (Carries.text s htextual).cell⟩
  | bytea bytes => exact ⟨bytes, rfl, (Carries.bytea bytes).cell⟩
  | date hfits => exact ⟨_, rfl, (Carries.date hfits).cell⟩
  | @timestamp micros t hfits ht =>
    refine ⟨writeInt 8 (toMicros t), rfl, ?_⟩
    rw [ht.toMicros, (Carries.timestamp hfits ht).cell]
    rfl
  | @timestamptz micros t hfits ht =>
    refine ⟨writeInt 8 (toMicros t), rfl, ?_⟩
    rw [ht.toMicros, (Carries.timestamptz hfits ht).cell]
    rfl
  | @json s j hj =>
    refine ⟨Utf8.encode j.write, rfl, ?_⟩
    rw [PgType.cell, Option.bind_some, PgType.read?, readText?_eq_some.mpr rfl]
    simp [Json.read?_write (Json.fits_of_read? hj), Value.reread, Option.map_eq_bind]
  | @jsonb s j hj =>
    refine ⟨jsonbVersion :: Utf8.encode j.write, rfl, ?_⟩
    rw [PgType.cell, Option.bind_some, PgType.read?, readText?_eq_some.mpr rfl]
    simp [Json.read?_write (Json.fits_of_read? hj), Value.reread, Option.map_eq_bind]
  | citext => cases hbindable
  | labels => cases hbindable

/-- Bytes that carry a value are what a cell shows that is not null. -/
theorem PgType.carries_of_cell (h : t.cell (some bytes) = v) (hv : v.isNull = false) :
    t.Carries bytes v := by
  rcases t.cell_cases bytes with hcarries | ⟨hnull, -⟩
  · rwa [h] at hcarries
  · rw [← h, hnull] at hv
    cases hv

/-- Binding one value to one parameter. -/
theorem bindAll_singleton (t : PgType) (v : Value) :
    bindAll [t] [v] = (t.bind v).map fun form => [form] := by
  simp [bindAll]
  rfl

/-- A value that has been read from a cell, and is not null, is refused as a parameter of the
cell's type for five types. For every other type it goes as bytes, and a cell of these bytes shows
what becomes of the value: the value itself, if all floating-point numbers of a document come back,
and another value if not. -/
theorem bindAll_cell (h : t.cell (some bytes) = v) (hv : v.isNull = false) :
    (t ∈ readOnlyTypes → bindAll [t] [v] = .error (.unbindable (.unsupportedType t.name))) ∧
    (t ∉ readOnlyTypes → ∃ back, bindAll [t] [v] = .ok [some back] ∧
      t.cell (some back) = v.reread ∧
        (v.reread = v ↔ ∀ x ∈ v.documentFloats, x.IsReread)) := by
  have hcarries := PgType.carries_of_cell h hv
  rw [bindAll_singleton, PgType.bind]
  constructor
  · intro ht
    have hbindable : t.isBindable = false := by
      rw [Bool.eq_false_iff, Ne, hcarries.isBindable, Classical.not_not]
      exact ht
    rw [hbindable]
    rfl
  · intro ht
    have hbindable := hcarries.isBindable.mpr ht
    obtain ⟨back, hwrite, hcell⟩ := hcarries.write? hbindable
    rw [hbindable, hv, hwrite]
    exact ⟨back, rfl, hcell, v.reread_eq_self⟩

/-- A document with one number, which comes back. -/
theorem bindAll_cell_price :
    PgType.jsonb.cell (some (jsonbVersion :: Utf8.encode "12.5")) =
        .json (.ofDouble ⟨0x4029000000000000⟩) ∧
      (Value.json (.ofDouble ⟨0x4029000000000000⟩)).isNull = false ∧
      ∃ back, bindAll [.jsonb] [.json (.ofDouble ⟨0x4029000000000000⟩)] = .ok [some back] ∧
        PgType.jsonb.cell (some back) = .json (.ofDouble ⟨0x4029000000000000⟩) := by
  have hread : Json.read? "12.5" = some (.ofDouble ⟨0x4029000000000000⟩) :=
    Json.read?_eq_ofDouble (by decide)
  have hcell : PgType.jsonb.cell (some (jsonbVersion :: Utf8.encode "12.5")) =
      .json (.ofDouble ⟨0x4029000000000000⟩) := (PgType.Carries.jsonb hread).cell
  have hfloats : ∀ x ∈ (Value.json (.ofDouble ⟨0x4029000000000000⟩)).documentFloats,
      x.IsReread := by decide
  obtain ⟨back, hbind, hback, hsame⟩ := (bindAll_cell hcell rfl).2 (by decide)
  exact ⟨hcell, rfl, back, hbind, hback.trans (hsame.mpr hfloats)⟩

/-- An object identifier can be read but not bound. And a document with one number goes as another
text than it came with, and comes back as the number before it. -/
theorem bindAll_cell_exceptions :
    (PgType.oid.cell (some [0, 0, 0, 5]) = .int 5 ∧
      bindAll [.oid] [.int 5] = .error (.unbindable (.unsupportedType "oid"))) ∧
    (PgType.json.cell (some (Utf8.encode "97.639771254372249")) =
        .json (.ofDouble ⟨0x405868F203219CC8⟩) ∧
      bindAll [.json] [.json (.ofDouble ⟨0x405868F203219CC8⟩)] =
        .ok [some (Utf8.encode "97.63977125437225")] ∧
      PgType.json.cell (some (Utf8.encode "97.63977125437225")) =
        .json (.ofDouble ⟨0x405868F203219CC7⟩)) := by
  have hcame : Json.read? "97.639771254372249" = some (.ofDouble ⟨0x405868F203219CC8⟩) :=
    Json.read?_eq_ofDouble (by decide)
  have hwrite : (Json.ofDouble ⟨0x405868F203219CC8⟩).write = "97.63977125437225" := by decide
  have hback : Json.read? "97.63977125437225" = some (.ofDouble ⟨0x405868F203219CC7⟩) :=
    Json.read?_eq_ofDouble (by decide)
  refine ⟨⟨rfl, rfl⟩, (PgType.Carries.json hcame).cell, ?_, (PgType.Carries.json hback).cell⟩
  rw [← hwrite]
  rfl

end Postgres

end SqlCompose
