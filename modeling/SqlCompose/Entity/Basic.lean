import SqlCompose.Calendar.Reading
import SqlCompose.Error

/-!
# Entities

An entity is a table with its columns in order. A column has a name in the database and the name
of the field it is read from and written to. One column may be the key; unless a key is declared,
a column named `id` is the key, and the database generates its values.
-/

namespace SqlCompose

open Calendar (Date DateTime)

/-- A column of a table. -/
structure Column where
  /-- The name in the database. -/
  name : String
  /-- The name of the field. -/
  field : String
  /-- What the column holds. -/
  kind : ColumnKind
  /-- Whether the column is the key. -/
  isKey : Bool
  /-- Whether the database generates the value of a new row. -/
  isGenerated : Bool
deriving DecidableEq, Repr

/-- A table and its columns. -/
structure Entity where
  /-- The name of the table. -/
  table : String
  /-- The columns in order of declaration. -/
  columns : List Column
  /-- Whether a key was declared. -/
  declaresKey : Bool
deriving DecidableEq, Repr

namespace Entity

/-! ## Declaring columns -/

/-- A table without declared columns. -/
def ofTable (table : String) : Entity := ⟨table, [], false⟩

/-- Add a column under the name of its field. -/
def addMapped (e : Entity) (name field : String) (kind : ColumnKind) : Entity :=
  let implicitKey := !e.declaresKey && Text.equalIgnoringCase name "id"
  { e with columns := e.columns ++ [⟨name, field, kind, implicitKey, implicitKey⟩] }

/-- Add a column whose field has the same name. -/
def addColumn (e : Entity) (name : String) (kind : ColumnKind) : Entity :=
  e.addMapped name name kind

/-- Add the key, which replaces every earlier one. -/
def declareKey (e : Entity) (name : String) (kind : ColumnKind) (generated : Bool) : Entity :=
  let others := e.columns.map fun c => { c with isKey := false, isGenerated := false }
  { e with columns := others ++ [⟨name, name, kind, true, generated⟩], declaresKey := true }

/-- Add a key that the program assigns. -/
def addKey (e : Entity) (name : String) (kind : ColumnKind) : Entity :=
  e.declareKey name kind false

/-- Add a key that the database generates. -/
def addGeneratedKey (e : Entity) (name : String) (kind : ColumnKind) : Entity :=
  e.declareKey name kind true

/-! ## Looking up columns -/

/-- The column with a field or a name: fields come first, then exact names, then names up to
case. -/
def find? (e : Entity) (name : String) : Option Column :=
  (e.columns.find? fun c => c.field == name).or
    ((e.columns.find? fun c => c.name == name).or
      (e.columns.find? fun c => Text.equalIgnoringCase c.name name))

/-- The key. -/
def key? (e : Entity) : Option Column := e.columns.find? fun c => c.isKey

/-- The key, which has to exist. -/
def requireKey (e : Entity) : Except QueryError Column :=
  match e.key? with
  | some c => .ok c
  | none => .error (.missingKey e.table)

/-- The field that a result column is read into. -/
def fieldFor (e : Entity) (column : String) : String :=
  match e.columns.find? fun c => Text.equalIgnoringCase c.name column with
  | some c => c.field
  | none => column

end Entity

/-! ## Values of columns -/

namespace Column

/-- The value of a field that is expected to have a form, or the fault that it has not. -/
def expect (c : Column) (json : Json) (value : Option Value) : Except QueryError Value :=
  match value with
  | some v => .ok v
  | none => .error (.unbindable (.fieldMismatch c.field json c.name c.kind))

/-- The value bound for a field; null is null for every kind of column. -/
def valueOfJson (c : Column) (json : Json) : Except QueryError Value :=
  if json.isNull then .ok .null
  else
    match c.kind with
    | .bool => c.expect json (json.asBool?.map .bool)
    | .int => c.expect json (json.asInt64?.map .int)
    | .float => c.expect json (json.asDouble?.map .float)
    | .text => .ok (.text (json.asString?.getD json.write))
    | .bytes =>
      match json.decodeBytes with
      | .ok bytes => .ok (.bytes bytes)
      | .error fault => .error (.undecodable fault)
    | .date => c.expect json ((json.asString?.bind Date.read?).map .date)
    | .dateTime => c.expect json ((json.asString?.bind DateTime.read?).map .dateTime)
    | .timestamp => c.expect json ((json.asString?.bind DateTime.readUniversal?).map .timestamp)
    | .json => .ok (.json json)

end Column

end SqlCompose
