import SqlCompose.Dialect.Statement
import SqlCompose.Session.Provider
import SqlCompose.Value.Integer

/-!
# Repositories

A repository reads and writes rows of one table by key, and changes or removes the rows that
satisfy a predicate. All values are converted before the connection is used. A row is inserted by its
JSON form alone (`Repository.addAs`), whatever type it is of; the rows that are read at a shape are
such a type (`Shape.rowType`).
-/

namespace SqlCompose

/-! ## Entities as records -/

/-- The members of an entity, which has to be an object. -/
def Entity.recordOf (e : Entity) : Json → Except QueryError (Fields Json)
  | .object members => .ok members
  | json =>
    .error (.dataAccess
      ("entity for `" ++ e.table ++ "` serialized to " ++ json.write ++ " instead of an object"))

/-- The members of a row of a table. -/
def Datum.toRecord (e : Entity) (x : Datum) : Except QueryError (Fields Json) :=
  e.recordOf x.toJson

/-- How the rows of a type are written as JSON and read from it. Both may fail, and what is read
need not be written as it was. -/
structure RowType (α : Type) where
  /-- The JSON form of a row. -/
  encode : α → Except QueryError Json
  /-- The row that a JSON value is read as. -/
  decode : Json → Except QueryError α

/-- The members of a row of a type. -/
def RowType.toRecord {α : Type} (T : RowType α) (e : Entity) (x : α) :
    Except QueryError (Fields Json) := do
  e.recordOf (← T.encode x)

/-- The rows of a shape. -/
def Shape.rowType (s : Shape) : RowType Datum where
  encode x := .ok x.toJson
  decode json := (s.decode json).mapError .undecodable

/-- The value that is bound for a column of a record; a missing field is null. -/
def Dialect.fieldValue (d : Dialect) (record : Fields Json) (c : Column) :
    Except QueryError Value := do
  .ok (d.param (← c.valueOfJson ((Fields.get? record c.field).getD .null)))

/-- The values that are bound for columns of a record. -/
def Dialect.fieldValues (d : Dialect) (record : Fields Json) (cs : List Column) :
    Except QueryError (List Value) := cs.mapM (d.fieldValue record)

/-! ## Repositories -/

/-- A table whose rows are read and written over a connection. -/
structure Repository (σ : Type) where
  /-- The connection. -/
  connection : Connection σ
  /-- The table. -/
  entity : Entity
  /-- What a row is read as. -/
  shape : Shape

namespace Repository

variable {σ : Type} (r : Repository σ)

/-- The dialect of the connection. -/
def dialect : Dialect := r.connection.dialect

/-- Whether a key never belongs to a row. -/
def isVacant : Value → Bool
  | .null => true
  | .int i => i == 0
  | _ => false

/-- The row with a key, if there is one. -/
def get (key : Value) : Run (Held σ) (Option Datum) := do
  let k ← Run.lift r.entity.requireKey
  if isVacant key then pure none
  else
    let sql := Statement.selectByKey r.dialect r.entity.table k.name
    let result ← r.connection.execute sql [r.dialect.param key]
    let rows ← Run.ofOutcome (result.materialize r.shape.decode r.entity)
    pure rows.head?

/-- The key that an insertion answers with. -/
def generatedKey (result : ResultSet) : Except QueryError Int64 :=
  match result.scalar?.bind Value.asInt64? with
  | some id => .ok id
  | none =>
    .error (.dataAccess ("insert into `" ++ r.entity.table ++ "` did not return a generated key"))

/-- The columns that an insertion sets. -/
def insertedColumns : List Column :=
  r.entity.columns.filter fun c => !(c.isKey && c.isGenerated)

/-- Insert a row of a type; the result is the row with the key that the database has generated for
it. -/
def addAs {α : Type} (T : RowType α) (x : α) : Run (Held σ) α := do
  let record ← Run.lift (T.toRecord r.entity x)
  let columns := r.insertedColumns
  let names := columns.map Column.name
  let values ← Run.lift (r.dialect.fieldValues record columns)
  match r.entity.key?.filter Column.isGenerated with
  | none =>
    let _ ← r.connection.executeNonQuery
      (Statement.insert r.dialect r.entity.table names none) values
    pure x
  | some k =>
    let result ← r.connection.execute
      (Statement.insert r.dialect r.entity.table names (some k.name)) values
    let id ← Run.lift (r.generatedKey result)
    Run.lift (T.decode (.object (Fields.insert k.field (.ofInt64 id) record)))

/-- Insert a row that has been read at the shape of the repository. -/
def add (x : Datum) : Run (Held σ) Datum := r.addAs r.shape.rowType x

/-- Write the columns of a row other than its key. -/
def update (x : Datum) : Run (Held σ) UInt64 := do
  let k ← Run.lift r.entity.requireKey
  let record ← Run.lift (x.toRecord r.entity)
  let columns := r.entity.columns.filter fun c => !c.isKey
  if columns.isEmpty then pure 0
  else
    let values ← Run.lift (r.dialect.fieldValues record columns)
    let key ← Run.lift (r.dialect.fieldValue record k)
    r.connection.executeNonQuery
      (Statement.updateByKey r.dialect r.entity.table (columns.map Column.name) k.name)
      (values ++ [key])

/-- Remove a row. -/
def remove (x : Datum) : Run (Held σ) UInt64 := do
  let k ← Run.lift r.entity.requireKey
  let record ← Run.lift (x.toRecord r.entity)
  let key ← Run.lift (r.dialect.fieldValue record k)
  r.connection.executeNonQuery (Statement.deleteByKey r.dialect r.entity.table k.name) [key]

/-- The column that an assignment names. -/
def assignedColumn (name : String) : Except QueryError String :=
  match r.entity.find? name with
  | some c => .ok c.name
  | none => .error (.unknownColumn r.entity.table name)

/-- Change columns of the rows that satisfy a predicate; without assignments nothing is done. -/
def batchUpdate (predicate : Expr) (assignments : List (String × Value)) :
    Run (Held σ) UInt64 := do
  if assignments.isEmpty then pure 0
  else
    let names ← Run.lift (assignments.mapM fun a => r.assignedColumn a.1)
    let filter ← Run.lift
      (r.dialect.planFilter r.entity predicate.toLambda (assignments.map (·.2)))
    r.connection.executeNonQuery
      (Statement.updateWhere r.dialect r.entity.table names filter.fragment) filter.params

/-- Remove the rows that satisfy a predicate. -/
def batchDelete (predicate : Expr) : Run (Held σ) UInt64 := do
  let filter ← Run.lift (r.dialect.planFilter r.entity predicate.toLambda [])
  r.connection.executeNonQuery
    (Statement.deleteWhere r.dialect r.entity.table filter.fragment) filter.params

/-- Close the connection. -/
def close : Run (Held σ) Unit := r.connection.close

/-- Give the repository up: the connection is closed, and a failure to do so is ignored. -/
def release : Run (Held σ) Unit := Run.ignoringFailure r.close

end Repository

end SqlCompose
