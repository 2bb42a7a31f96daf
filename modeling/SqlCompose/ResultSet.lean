import SqlCompose.Entity.Basic
import SqlCompose.Value.Json

/-!
# Result sets

What a statement answers with: columns with the names of their types, and rows of cells. A row
becomes a record under the fields that an entity maps its columns to; a row may have fewer or more
cells than there are columns, and what has no partner is left out.
-/

namespace SqlCompose

/-- A column of a result set. -/
structure ResultColumn where
  /-- The name of the column. -/
  name : String
  /-- The name of its type. -/
  typeName : String
deriving DecidableEq, Repr

/-- The answer of a statement. -/
structure ResultSet where
  /-- The columns. -/
  columns : List ResultColumn
  /-- The rows. -/
  rows : List (List Value)

namespace ResultSet

/-- The answer without columns and rows. -/
def empty : ResultSet := ⟨[], []⟩

/-- The columns with these names, whose types are those of the cells of a row. -/
def typedColumns : List String → List Value → List ResultColumn
  | [], _ => []
  | name :: names, [] => ⟨name, "unknown"⟩ :: typedColumns names []
  | name :: names, cell :: cells => ⟨name, cell.typeName⟩ :: typedColumns names cells

/-- The answer with these columns and rows; the first row gives the types. -/
def ofRows (names : List String) (rows : List (List Value)) : ResultSet :=
  ⟨typedColumns names (rows.head?.getD []), rows⟩

/-- The number of rows. -/
def rowCount (r : ResultSet) : Nat := r.rows.length

/-- The first cell of the first row. -/
def scalar? (r : ResultSet) : Option Value := r.rows.head?.bind fun row => row.head?

/-- A row as a record; of two columns with one field, the later one counts. -/
def record (r : ResultSet) (e : Entity) (row : List Value) : Fields Json :=
  Fields.ofList ((r.columns.zip row).map fun (c, cell) => (e.fieldFor c.name, cell.toJson))

/-- The rows as records. -/
def records (r : ResultSet) (e : Entity) : List (Fields Json) := r.rows.map (r.record e)

end ResultSet

end SqlCompose
