/-!
# Types of PostgreSQL

The types of parameters and columns that have a binary form here; every other type is known by its
name only.

The types are those that release 0.7 of `tokio-postgres` converts, together with `chrono` 0.4 and
`serde_json` 1.
-/

namespace SqlCompose.Postgres

/-- A type of the server. -/
inductive PgType where
  /-- Truth values. -/
  | bool
  /-- Integers of two bytes. -/
  | int2
  /-- Integers of four bytes. -/
  | int4
  /-- Integers of eight bytes. -/
  | int8
  /-- Object identifiers, which have no sign. -/
  | oid
  /-- Floating-point numbers of four bytes. -/
  | float4
  /-- Floating-point numbers of eight bytes. -/
  | float8
  /-- Texts. -/
  | text
  /-- Texts with a limit. -/
  | varchar
  /-- Texts padded to their limit. -/
  | bpchar
  /-- Names of objects. -/
  | identifier
  /-- Literals whose type is open. -/
  | unknown
  /-- Bytes. -/
  | bytea
  /-- Dates. -/
  | date
  /-- Moments. -/
  | timestamp
  /-- Moments of universal time. -/
  | timestamptz
  /-- JSON as it is written. -/
  | json
  /-- JSON taken apart. -/
  | jsonb
  /-- Any other type. -/
  | other (name : String)
deriving DecidableEq, Repr

namespace PgType

/-- The name of a type. -/
def name : PgType → String
  | .bool => "bool"
  | .int2 => "int2"
  | .int4 => "int4"
  | .int8 => "int8"
  | .oid => "oid"
  | .float4 => "float4"
  | .float8 => "float8"
  | .text => "text"
  | .varchar => "varchar"
  | .bpchar => "bpchar"
  | .identifier => "name"
  | .unknown => "unknown"
  | .bytea => "bytea"
  | .date => "date"
  | .timestamp => "timestamp"
  | .timestamptz => "timestamptz"
  | .json => "json"
  | .jsonb => "jsonb"
  | .other name => name

/-- The types with a binary form. -/
def common : List PgType :=
  [.bool, .int2, .int4, .int8, .oid, .float4, .float8, .text, .varchar, .bpchar, .identifier,
    .unknown, .bytea, .date, .timestamp, .timestamptz, .json, .jsonb]

/-- The type with a name. -/
def ofName (name : String) : PgType := (common.find? fun t => t.name == name).getD (.other name)

/-- Whether cells and parameters of a type are plain text. -/
def isTextual : PgType → Bool
  | .text | .varchar | .bpchar | .identifier | .unknown => true
  | _ => false

/-- Whether values can be bound to parameters of a type. -/
def isBindable : PgType → Bool
  | .oid | .other _ => false
  | _ => true

end PgType

end SqlCompose.Postgres
