import SqlCompose.Connection.Basic
import SqlCompose.Text.Search
import SqlCompose.Value.Integer

/-!
# Tables described by their database

The catalogue of a database lists the columns of a table in order, with the names of their types,
their defaults and whether they are part of the primary key. A default that takes the next number
of a sequence marks a key as generated.
-/

namespace SqlCompose

/-- The query for the columns of a table; the parameter is the name of the table. -/
def Dialect.catalogueQuery (d : Dialect) : String :=
  "\n        SELECT\n" ++
  "            CAST(c.column_name AS VARCHAR(128)) AS column_name,\n" ++
  "            CAST(c.data_type AS VARCHAR(128)) AS data_type,\n" ++
  "            CASE WHEN tc.constraint_type = 'PRIMARY KEY' THEN 1 ELSE 0 END AS" ++
    " is_primary_key,\n" ++
  "            CAST(c.column_default AS VARCHAR(4000)) AS column_default\n" ++
  "        FROM information_schema.columns c\n" ++
  "        LEFT JOIN information_schema.key_column_usage kcu\n" ++
  "            ON c.table_schema = kcu.table_schema\n" ++
  "            AND c.table_name = kcu.table_name\n" ++
  "            AND c.column_name = kcu.column_name\n" ++
  "        LEFT JOIN information_schema.table_constraints tc\n" ++
  "            ON kcu.constraint_name = tc.constraint_name\n" ++
  "            AND kcu.table_schema = tc.table_schema\n" ++
  "            AND tc.constraint_type = 'PRIMARY KEY'\n" ++
  "        WHERE c.table_name = " ++ d.placeholder 0 ++ "\n" ++
  "        ORDER BY c.ordinal_position\n        "

namespace Entity

/-- The text in a cell of a row; any other cell counts as empty. -/
def cellText (row : List Value) (index : Nat) : String :=
  match row[index]? with
  | some (.text s) => s
  | _ => ""

/-- Whether a row marks a column of the primary key. -/
def marksKey (row : List Value) : Bool := (row[2]?.bind Value.asInt64?) == some 1

/-- The start of a default that takes the next number of a sequence. -/
def sequencePrefix : String := "nextval("

/-- An entity with the column that a row describes. -/
def addDescribed (e : Entity) (row : List Value) : Entity :=
  let name := cellText row 0
  let kind := ColumnKind.ofSqlType (cellText row 1)
  if marksKey row then
    if Text.startsWith sequencePrefix (cellText row 3) then e.addGeneratedKey name kind
    else e.addKey name kind
  else e.addColumn name kind

/-- The entity that rows of the catalogue describe. -/
def ofCatalogue (table : String) (rows : List (List Value)) : Entity :=
  rows.foldl addDescribed (Entity.ofTable table)

end Entity

/-- The entity for a table, as the database describes it. -/
def Connection.describe {σ : Type} (c : Connection σ) (table : String) : Run σ Entity := do
  c.ensureOpen
  let result ← c.query c.dialect.catalogueQuery [.text table]
  if result.rows.isEmpty then Run.fail (.dataAccess ("table `" ++ table ++ "` not found"))
  else pure (Entity.ofCatalogue table result.rows)

end SqlCompose
