import SqlCompose.Calendar.DateTime
import SqlCompose.Json.Reading
import SqlCompose.Postgres.Kind
import SqlCompose.Postgres.Wire
import SqlCompose.Text.Utf8
import SqlCompose.Value.Basic

/-!
# Cells of PostgreSQL

The binary form of a cell, read by the type of its column. Dates are days and moments are
microseconds from the start of the year 2000. A cell that is not of its type's form, or out of
range, has no value.

The forms are those of the binary format of the server's protocol, as release 0.7 of
`tokio-postgres` reads them.
-/

namespace SqlCompose.Postgres

/-- The nanoseconds to the start of the year 2000. -/
def epochNanos : Int := Calendar.Date.epoch * 86400000000000

/-- The moment a number of microseconds after the start of the year 2000. -/
def ofMicros? (micros : Int) : Option Calendar.DateTime :=
  Calendar.DateTime.ofNanos? (epochNanos + micros * 1000)

/-- The microseconds from the start of the year 2000 to a moment; what is less than one of them is
left out. -/
def toMicros (t : Calendar.DateTime) : Int := (t.nanos - epochNanos).tdiv 1000

/-- The text of bytes. -/
def readText? (bytes : List UInt8) : Option String := (Utf8.decode bytes).toOption

/-- The version in front of a cell of taken-apart JSON. -/
def jsonbVersion : UInt8 := 1

/-- What stands behind a version. -/
def behindVersion? (version : UInt8) : List UInt8 → Option (List UInt8)
  | first :: bytes => if first = version then some bytes else none
  | [] => none

/-- The version in front of a cell of a path of labels, or of a pattern of such paths. -/
def labelVersion : UInt8 := 1

/-- The types of extensions whose cells are texts behind a version. -/
def labelTypes : List String := ["ltree", "lquery", "ltxtquery"]

/-- The text of a cell of a type that is known by its name only. -/
def readNamed? (name : String) (bytes : List UInt8) : Option String :=
  if name = "citext" then readText? bytes
  else if labelTypes.contains name then (behindVersion? labelVersion bytes).bind readText?
  else none

/-- The value of a cell. -/
def PgType.read? : PgType → List UInt8 → Option Value
  | .bool, bytes =>
    match bytes with
    | [byte] => some (.bool (byte != 0))
    | _ => none
  | .int2, bytes => (readInt? 2 bytes).map fun n => .int (Int64.ofInt n)
  | .int4, bytes => (readInt? 4 bytes).map fun n => .int (Int64.ofInt n)
  | .int8, bytes => (readInt? 8 bytes).map fun n => .int (Int64.ofInt n)
  | .oid, bytes => (readNat? 4 bytes).map fun n => .int (Int64.ofNat n)
  | .float4, bytes => (readNat? 4 bytes).map fun n => .float (.ofSingle (UInt32.ofNat n))
  | .float8, bytes => (readNat? 8 bytes).map fun n => .float ⟨UInt64.ofNat n⟩
  | .text, bytes | .varchar, bytes | .bpchar, bytes | .identifier, bytes | .unknown, bytes =>
    (readText? bytes).map .text
  | .bytea, bytes => some (.bytes bytes)
  | .date, bytes => do
    some (.date (← Calendar.Date.ofNumber? (Calendar.Date.epoch + (← readInt? 4 bytes))))
  | .timestamp, bytes => do some (.dateTime (← ofMicros? (← readInt? 8 bytes)))
  | .timestamptz, bytes => do some (.timestamp (← ofMicros? (← readInt? 8 bytes)))
  | .json, bytes => do some (.json (← Json.read? (← readText? bytes)))
  | .jsonb, bytes =>
    match bytes with
    | version :: bytes => do
      if version != jsonbVersion then none
      some (.json (← Json.read? (← readText? bytes)))
    | [] => none
  | .other name, bytes => (readNamed? name bytes).map .text

/-- The value of a cell that may be missing; one that cannot be read counts as missing. -/
def PgType.cell (t : PgType) (bytes : Option (List UInt8)) : Value :=
  (bytes.bind t.read?).getD .null

end SqlCompose.Postgres
