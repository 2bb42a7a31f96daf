import SqlCompose.Text.Ascii
import SqlCompose.Text.Search

/-!
# Kinds of columns

The kind of a column decides which values it takes. `ofSqlType` finds the kind of a data type as
database catalogs name them.
-/

namespace SqlCompose

/-- The kind of a column. -/
inductive ColumnKind where
  /-- Truth values. -/
  | bool
  /-- Integers. -/
  | int
  /-- Floating-point numbers. -/
  | float
  /-- Texts. -/
  | text
  /-- Strings of bytes. -/
  | bytes
  /-- Dates. -/
  | date
  /-- Moments of a local clock. -/
  | dateTime
  /-- Moments of the universal clock. -/
  | timestamp
  /-- JSON documents. -/
  | json
deriving DecidableEq, Repr

namespace ColumnKind

/-- All kinds. -/
def all : List ColumnKind :=
  [.bool, .int, .float, .text, .bytes, .date, .dateTime, .timestamp, .json]

/-- The name of a kind. -/
def name : ColumnKind → String
  | .bool => "Bool"
  | .int => "Int"
  | .float => "Float"
  | .text => "Text"
  | .bytes => "Bytes"
  | .date => "Date"
  | .dateTime => "DateTime"
  | .timestamp => "Timestamp"
  | .json => "Json"

/-- The kind with a name. -/
def ofName? (name : String) : Option ColumnKind := all.find? fun kind => kind.name == name

/-- The data types whose names stand for a kind as a whole. -/
def sqlTypes : List (ColumnKind × List String) := [
  (.bool, ["boolean", "bool", "bit"]),
  (.int, ["smallint", "integer", "int", "bigint", "tinyint", "mediumint"]),
  (.float, ["real", "double precision", "double", "float", "numeric", "decimal", "money"]),
  (.bytes, ["bytea", "binary", "varbinary", "blob", "image"]),
  (.date, ["date"]),
  (.timestamp, ["timestamp with time zone", "datetimeoffset"]),
  (.json, ["json", "jsonb"])]

/-- The kind of a data type; a type that is not known holds texts. -/
def ofSqlType (dataType : String) : ColumnKind :=
  let t := Text.asciiLower dataType
  match sqlTypes.find? fun (_, names) => names.contains t with
  | some (kind, _) => kind
  | none =>
    if Text.startsWith "timestamp" t || Text.startsWith "datetime" t then .dateTime else .text

end ColumnKind

end SqlCompose
