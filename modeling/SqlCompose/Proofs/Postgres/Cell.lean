import SqlCompose.Postgres.Cell
import SqlCompose.Proofs.Calendar.DateTime
import SqlCompose.Proofs.Postgres.Wire
import SqlCompose.Proofs.Text.Utf8

/-!
# What the bytes of a cell stand for

`PgType.Carries` says which bytes are the form of which value in a column of a type. It is written
from the side of the values: a number has its bytes, a text its encoding, a day its distance from
the start of the year 2000. `read?_eq_some` says that a cell is read as a value if and only if its
bytes are the form of that value.
-/

namespace SqlCompose.Postgres

open Calendar (Date DateTime)

/-! ## Forms of values -/

/-- Whether a moment, not in a leap second, lies a number of microseconds after the start of the year
2000. -/
def IsMoment (micros : Int) (t : DateTime) : Prop :=
  t.nanos = epochNanos + micros * 1000 ∧ t.clock.inLeapSecond = false

/-- Whether bytes are the form of a value in a column of a type. -/
inductive PgType.Carries : PgType → List UInt8 → Value → Prop where
  /-- A byte that is not zero is true. -/
  | bool (byte : UInt8) : Carries .bool [byte] (.bool (byte != 0))
  /-- An integer of two bytes. -/
  | int2 {n : Int} : FitsBytes 2 n → Carries .int2 (writeInt 2 n) (.int (.ofInt n))
  /-- An integer of four bytes. -/
  | int4 {n : Int} : FitsBytes 4 n → Carries .int4 (writeInt 4 n) (.int (.ofInt n))
  /-- An integer of eight bytes. -/
  | int8 {n : Int} : FitsBytes 8 n → Carries .int8 (writeInt 8 n) (.int (.ofInt n))
  /-- A number without a sign. -/
  | oid {n : Nat} : n < 256 ^ 4 → Carries .oid (bigEndian 4 n) (.int (.ofNat n))
  /-- A number of thirty-two bits stands for its value in sixty-four. -/
  | float4 (bits : UInt32) : Carries .float4 (bigEndian 4 bits.toNat) (.float (.ofSingle bits))
  /-- A number of sixty-four bits. -/
  | float8 (x : Double) : Carries .float8 (bigEndian 8 x.bits.toNat) (.float x)
  /-- A text. -/
  | text {t : PgType} (s : String) : t.isTextual = true → Carries t (Utf8.encode s) (.text s)
  /-- Bytes. -/
  | bytea (bytes : List UInt8) : Carries .bytea bytes (.bytes bytes)
  /-- A date within the range of four bytes. -/
  | date {d : Date} : FitsBytes 4 (d.number - Date.epoch) →
    Carries .date (writeInt 4 (d.number - Date.epoch)) (.date d)
  /-- A moment of a local clock. -/
  | timestamp {micros : Int} {t : DateTime} : FitsBytes 8 micros → IsMoment micros t →
    Carries .timestamp (writeInt 8 micros) (.dateTime t)
  /-- A moment of the universal clock. -/
  | timestamptz {micros : Int} {t : DateTime} : FitsBytes 8 micros → IsMoment micros t →
    Carries .timestamptz (writeInt 8 micros) (.timestamp t)
  /-- A document as it is written. -/
  | json {s : String} {j : Json} : Json.read? s = some j → Carries .json (Utf8.encode s) (.json j)
  /-- A document that is taken apart, behind its version. -/
  | jsonb {s : String} {j : Json} : Json.read? s = some j →
    Carries .jsonb (jsonbVersion :: Utf8.encode s) (.json j)
  /-- A text without case. -/
  | citext (s : String) : Carries (.other "citext") (Utf8.encode s) (.text s)
  /-- A path of labels, or a pattern, behind its version. -/
  | labels {name : String} (s : String) : name ∈ labelTypes →
    Carries (.other name) (labelVersion :: Utf8.encode s) (.text s)

/-! ## Parts of a cell -/

variable {bytes : List UInt8} {v : Value}

/-- Bytes are read as a text when they are its encoding. -/
theorem readText?_eq_some {s : String} : readText? bytes = some s ↔ bytes = Utf8.encode s := by
  rw [← Utf8.decode_eq_ok, readText?]
  cases Utf8.decode bytes with
  | error fault => simp [Except.toOption]
  | ok text => simp [Except.toOption]

/-- A number of microseconds is read as the moment that lies so far after the start. -/
theorem ofMicros?_eq_some {micros : Int} {t : DateTime} :
    ofMicros? micros = some t ↔ IsMoment micros t := DateTime.ofNanos?_eq_some

/-- Bytes behind a version are read when the first byte is that version. -/
theorem behindVersion?_eq_some {version : UInt8} {behind : List UInt8} :
    behindVersion? version bytes = some behind ↔ bytes = version :: behind := by
  cases bytes with
  | nil => simp [behindVersion?]
  | cons first bytes =>
    simp only [behindVersion?, List.cons.injEq]
    split
    · rename_i heq
      simp [heq]
    · rename_i hne
      simp [hne]

/-- Bytes of a named type are read as text: as they are, or behind a version where the type has
one. -/
theorem readNamed?_eq_some {name s : String} : readNamed? name bytes = some s ↔
    (name = "citext" ∧ bytes = Utf8.encode s) ∨
      (name ∈ labelTypes ∧ bytes = labelVersion :: Utf8.encode s) := by
  unfold readNamed?
  split
  · rename_i heq
    subst heq
    simp [readText?_eq_some, labelTypes]
  · rename_i hne
    split
    · rename_i hmem
      have hmem : name ∈ labelTypes := by simpa using hmem
      simp [hne, hmem, Option.bind_eq_some_iff, behindVersion?_eq_some, readText?_eq_some]
    · rename_i hmem
      have hmem : name ∉ labelTypes := by simpa using hmem
      simp [hne, hmem]

/-- A signed number is read from the bytes it is written as. -/
theorem exists_int_of_map {count : Nat} {f : Int → Value}
    (h : (readInt? count bytes).map f = some v) :
    ∃ n, FitsBytes count n ∧ bytes = writeInt count n ∧ f n = v := by
  obtain ⟨n, hn, hv⟩ := Option.map_eq_some_iff.mp h
  obtain ⟨hfits, hbytes⟩ := readInt?_eq_some.mp hn
  exact ⟨n, hfits, hbytes, hv⟩

/-- An unsigned number is read from the bytes it is written as. -/
theorem exists_nat_of_map {count : Nat} {f : Nat → Value}
    (h : (readNat? count bytes).map f = some v) :
    ∃ n, n < 256 ^ count ∧ bytes = bigEndian count n ∧ f n = v := by
  obtain ⟨n, hn, hv⟩ := Option.map_eq_some_iff.mp h
  obtain ⟨hlt, hbytes⟩ := readNat?_eq_some.mp hn
  exact ⟨n, hlt, hbytes, hv⟩

/-- A moment is read from the bytes that its microseconds are written as. -/
theorem exists_moment_of_bind {f : DateTime → Value}
    (h : (do some (f (← ofMicros? (← readInt? 8 bytes)))) = some v) :
    ∃ micros t, FitsBytes 8 micros ∧ IsMoment micros t ∧ bytes = writeInt 8 micros ∧ f t = v := by
  obtain ⟨n, hn, h⟩ := Option.bind_eq_some_iff.mp h
  obtain ⟨t, ht, h⟩ := Option.bind_eq_some_iff.mp h
  obtain ⟨hfits, hbytes⟩ := readInt?_eq_some.mp hn
  exact ⟨n, t, hfits, ofMicros?_eq_some.mp ht, hbytes, Option.some.inj h⟩

/-- A JSON value is read from the bytes of a text that is read as this value. -/
theorem exists_json_of_bind {f : Json → Value}
    (h : (do some (f (← Json.read? (← readText? bytes)))) = some v) :
    ∃ s j, Json.read? s = some j ∧ bytes = Utf8.encode s ∧ f j = v := by
  obtain ⟨s, hs, h⟩ := Option.bind_eq_some_iff.mp h
  obtain ⟨j, hj, h⟩ := Option.bind_eq_some_iff.mp h
  exact ⟨s, j, hj, readText?_eq_some.mp hs, Option.some.inj h⟩

/-! ## Cells -/

/-- What is read is what the bytes stand for. -/
theorem PgType.carries_of_read? {t : PgType} (h : t.read? bytes = some v) : t.Carries bytes v := by
  cases t with
  | bool =>
    match bytes, h with
    | [byte], h =>
      obtain rfl := Option.some.inj h
      exact .bool byte
  | int2 =>
    obtain ⟨n, hfits, rfl, rfl⟩ := exists_int_of_map h
    exact .int2 hfits
  | int4 =>
    obtain ⟨n, hfits, rfl, rfl⟩ := exists_int_of_map h
    exact .int4 hfits
  | int8 =>
    obtain ⟨n, hfits, rfl, rfl⟩ := exists_int_of_map h
    exact .int8 hfits
  | oid =>
    obtain ⟨n, hlt, rfl, rfl⟩ := exists_nat_of_map h
    exact .oid hlt
  | float4 =>
    obtain ⟨n, hlt, rfl, rfl⟩ := exists_nat_of_map h
    have hbits := Carries.float4 (UInt32.ofNat n)
    rwa [UInt32.toNat_ofNat_of_lt' hlt] at hbits
  | float8 =>
    obtain ⟨n, hlt, rfl, rfl⟩ := exists_nat_of_map h
    have hbits := Carries.float8 ⟨UInt64.ofNat n⟩
    rwa [UInt64.toNat_ofNat_of_lt' hlt] at hbits
  | text | varchar | bpchar | identifier | unknown =>
    obtain ⟨s, hs, rfl⟩ := Option.map_eq_some_iff.mp h
    obtain rfl := readText?_eq_some.mp hs
    exact .text s rfl
  | bytea =>
    obtain rfl := Option.some.inj h
    exact .bytea bytes
  | date =>
    obtain ⟨n, hn, h⟩ := Option.bind_eq_some_iff.mp h
    obtain ⟨d, hd, h⟩ := Option.bind_eq_some_iff.mp h
    obtain rfl := Option.some.inj h
    obtain ⟨hfits, rfl⟩ := readInt?_eq_some.mp hn
    obtain rfl : n = d.number - Date.epoch := by
      rw [Date.ofNumber?_eq_some.mp hd]
      omega
    exact .date hfits
  | timestamp =>
    obtain ⟨micros, t, hfits, hmoment, rfl, rfl⟩ := exists_moment_of_bind h
    exact .timestamp hfits hmoment
  | timestamptz =>
    obtain ⟨micros, t, hfits, hmoment, rfl, rfl⟩ := exists_moment_of_bind h
    exact .timestamptz hfits hmoment
  | json =>
    obtain ⟨s, j, hj, rfl, rfl⟩ := exists_json_of_bind h
    exact .json hj
  | jsonb =>
    match bytes, h with
    | version :: bytes, h =>
      by_cases hversion : version = jsonbVersion
      · subst hversion
        obtain ⟨s, j, hj, rfl, rfl⟩ := exists_json_of_bind h
        exact .jsonb hj
      · simp [read?, hversion] at h
  | other name =>
    obtain ⟨s, hs, rfl⟩ := Option.map_eq_some_iff.mp h
    rcases readNamed?_eq_some.mp hs with ⟨rfl, rfl⟩ | ⟨hname, rfl⟩
    · exact .citext s
    · exact .labels s hname

/-- What bytes stand for is what is read. -/
theorem PgType.Carries.read? {t : PgType} (h : t.Carries bytes v) : t.read? bytes = some v := by
  cases h with
  | bool byte => rfl
  | int2 hn | int4 hn | int8 hn =>
    rw [PgType.read?, readInt?_eq_some.mpr ⟨hn, rfl⟩]
    rfl
  | oid hlt =>
    rw [PgType.read?, readNat?_eq_some.mpr ⟨hlt, rfl⟩]
    rfl
  | float4 bits =>
    rw [PgType.read?, readNat?_eq_some.mpr ⟨bits.toNat_lt, rfl⟩, Option.map_some,
      UInt32.ofNat_toNat]
  | float8 x =>
    rw [PgType.read?, readNat?_eq_some.mpr ⟨x.bits.toNat_lt, rfl⟩, Option.map_some,
      UInt64.ofNat_toNat]
  | text s htextual =>
    have hs : (readText? (Utf8.encode s)).map Value.text = some (.text s) := by
      rw [readText?_eq_some.mpr rfl]
      rfl
    cases t <;> first | exact hs | cases htextual
  | bytea => rfl
  | @date d hfits =>
    have hd : Date.ofNumber? (Date.epoch + (d.number - Date.epoch)) = some d :=
      Date.ofNumber?_eq_some.mpr (by omega)
    rw [PgType.read?, readInt?_eq_some.mpr ⟨hfits, rfl⟩]
    simp only [Option.bind_eq_bind, Option.bind_some, hd]
  | timestamp hfits ht | timestamptz hfits ht =>
    rw [PgType.read?, readInt?_eq_some.mpr ⟨hfits, rfl⟩]
    simp [ofMicros?_eq_some.mpr ht]
  | json hj =>
    rw [PgType.read?, readText?_eq_some.mpr rfl]
    simp [hj]
  | jsonb hj =>
    rw [PgType.read?, readText?_eq_some.mpr rfl]
    simp [hj]
  | citext s =>
    rw [PgType.read?, readNamed?_eq_some.mpr (.inl ⟨rfl, rfl⟩)]
    rfl
  | labels s hname =>
    rw [PgType.read?, readNamed?_eq_some.mpr (.inr ⟨hname, rfl⟩)]
    rfl

/-- A cell is read as a value if and only if its bytes are the form of that value. -/
theorem PgType.read?_eq_some {t : PgType} : t.read? bytes = some v ↔ t.Carries bytes v :=
  ⟨carries_of_read?, Carries.read?⟩

/-- No bytes carry the null value. -/
theorem PgType.Carries.isNull {t : PgType} (h : t.Carries bytes v) : v.isNull = false := by
  cases h <;> rfl

/-- A cell is the value that its bytes stand for, or null if they stand for none. -/
theorem PgType.cell_cases (t : PgType) (bytes : List UInt8) :
    t.Carries bytes (t.cell (some bytes)) ∨
      t.cell (some bytes) = .null ∧ ∀ v, ¬t.Carries bytes v := by
  cases h : t.read? bytes with
  | none =>
    refine .inr ⟨by simp [cell, h], fun v hv => ?_⟩
    cases h.symm.trans hv.read?
  | some v =>
    have hcell : t.cell (some bytes) = v := by simp [cell, h]
    rw [hcell]
    exact .inl (carries_of_read? h)

end SqlCompose.Postgres
