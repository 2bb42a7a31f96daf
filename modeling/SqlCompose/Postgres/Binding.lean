import SqlCompose.Calendar.Reading
import SqlCompose.Error
import SqlCompose.Postgres.Cell
import SqlCompose.Value.Integer
import SqlCompose.Value.Json

/-!
# Parameters of PostgreSQL

The binary form of a value as a parameter, by the type that the server has found for the
parameter. Integers and truth values come from any value that is an integer, texts from any value
that is not a collection, dates and moments from texts too, and JSON from every value.

The forms are those of the binary format of the server's protocol, as release 0.7 of
`tokio-postgres` writes them.
-/

namespace SqlCompose.Postgres

/-! ## Forms of a value -/

/-- A value as an integer of a number of bytes. -/
def encodeInteger? (width : Nat) (v : Value) : Option (List UInt8) := do
  let n := (← v.asInt64?).toInt
  let range : Int := Nat.pow 256 width
  if -range ≤ 2 * n ∧ 2 * n < range then some (writeInt width n) else none

/-- A value as a truth value. -/
def asTruth? : Value → Option Bool
  | .bool b => some b
  | v => v.asInt64?.map (· != 0)

/-- A value as a floating-point number. -/
def asDouble? : Value → Option Double
  | .float x => some x
  | .int n => some (.ofInt n.toInt)
  | _ => none

/-- A value as a text. -/
def asText? : Value → Option String
  | .text s => some s
  | .bytes _ | .list _ | .record _ => none
  | v => some v.display

/-- A value as a date. -/
def asDate? : Value → Option Calendar.Date
  | .date d => some d
  | .text s => Calendar.Date.read? s
  | _ => none

/-- A value as a moment. -/
def asMoment? : Value → Option Calendar.DateTime
  | .dateTime t => some t
  | .text s => Calendar.DateTime.read? s
  | _ => none

/-- A value as a moment of universal time. -/
def asUniversal? : Value → Option Calendar.DateTime
  | .timestamp t => some t
  | .dateTime t => some t
  | .text s => Calendar.DateTime.readUniversal? s
  | _ => none

/-! ## Parameters -/

/-- The form of a value that is not null, as a parameter of a type. -/
def PgType.write? : PgType → Value → Option (List UInt8)
  | .bool, v => (asTruth? v).map fun b => [if b then 1 else 0]
  | .int2, v => encodeInteger? 2 v
  | .int4, v => encodeInteger? 4 v
  | .int8, v => encodeInteger? 8 v
  | .float4, v => (asDouble? v).map fun x => bigEndian 4 x.toSingle.toNat
  | .float8, v => (asDouble? v).map fun x => bigEndian 8 x.bits.toNat
  | .text, v | .varchar, v | .bpchar, v | .identifier, v | .unknown, v =>
    (asText? v).map Utf8.encode
  | .bytea, v =>
    match v with
    | .bytes bytes => some bytes
    | _ => none
  | .date, v => (asDate? v).map fun d => writeInt 4 (d.number - Calendar.Date.epoch)
  | .timestamp, v => (asMoment? v).map fun t => writeInt 8 (toMicros t)
  | .timestamptz, v => (asUniversal? v).map fun t => writeInt 8 (toMicros t)
  | .json, v => some (Utf8.encode v.toJson.write)
  | .jsonb, v => some (jsonbVersion :: Utf8.encode v.toJson.write)
  | .oid, _ | .other _, _ => none

/-- A value as a parameter of a type; null has no form. -/
def PgType.bind (t : PgType) (v : Value) : Except QueryError (Option (List UInt8)) :=
  if !t.isBindable then .error (.unbindable (.unsupportedType t.name))
  else if v.isNull then .ok none
  else
    match t.write? v with
    | some bytes => .ok (some bytes)
    | none => .error (.unbindable (.incompatible v t.name))

/-- Values as the parameters of a statement. -/
def bindAll (types : List PgType) (values : List Value) :
    Except QueryError (List (Option (List UInt8))) :=
  if values.length ≠ types.length then
    .error (.unbindable (.parameterCount types.length values.length))
  else (types.zip values).mapM fun (t, v) => t.bind v

end SqlCompose.Postgres
