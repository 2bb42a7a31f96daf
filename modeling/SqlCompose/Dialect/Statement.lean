import SqlCompose.Dialect.Token

/-!
# Statements on rows by key

Insertion, selection, change and removal of rows. Parameters are numbered in the order in which
they occur: assigned columns first, the key last.
-/

namespace SqlCompose.Statement

/-! ## Tokens -/

/-- The identifiers of columns, separated by commas. -/
def columnList (columns : List String) : List Token :=
  commaSeparated (columns.map fun c => [.ident c])

/-- So many parameters from an index on. -/
def parameters (start count : Nat) : List Token :=
  (List.range count).map fun i => .param (start + i)

/-- Assignments of consecutive parameters to columns, from an index on. -/
def assignments (start : Nat) : List String → List (List Token)
  | [] => []
  | c :: columns => [.ident c, .word " = ", .param start] :: assignments (start + 1) columns

/-- What makes an insertion answer with the key that was generated. -/
def returning (d : Dialect) (key : String) : List Token :=
  match d with
  | .postgres => [.word " RETURNING ", .ident key]
  | .sqlServer | .sqlServerLegacy =>
    [.word "; SELECT CAST(SCOPE_IDENTITY() AS BIGINT) AS ", .ident key, .word ";"]
  | .mySql => [.word "; SELECT LAST_INSERT_ID() AS ", .ident key, .word ";"]

/-- What an insertion without columns says instead of them. -/
def noColumns (d : Dialect) : Token :=
  match d with
  | .mySql => .word " () VALUES ()"
  | _ => .word " DEFAULT VALUES"

/-- The tokens of an insertion. -/
def insertTokens (d : Dialect) (table : String) (columns : List String)
    (generatedKey : Option String) : List Token :=
  [.word "INSERT INTO ", .ident table] ++
    (if columns.isEmpty then [noColumns d]
     else
      [.word " ("] ++ columnList columns ++ [.word ") VALUES ("] ++
        commaSeparated ((parameters 0 columns.length).map fun t => [t]) ++ [.word ")"]) ++
    (generatedKey.map (returning d)).getD []

/-- The tokens of a condition on a key. -/
def keyTokens (key : String) (index : Nat) : List Token :=
  [.ident key, .word " = ", .param index]

/-- The tokens of a change of columns, without the condition. -/
def updateTokens (table : String) (columns : List String) : List Token :=
  [.word "UPDATE ", .ident table, .word " SET "] ++ commaSeparated (assignments 0 columns)

/-- The tokens of a removal, without the condition. -/
def deleteTokens (table : String) : List Token := [.word "DELETE FROM ", .ident table]

/-! ## Texts -/

/-- A condition behind a statement, if there is one. -/
def whereClause (filter : String) : String := if filter.isEmpty then "" else " WHERE " ++ filter

/-- Insert a row; with a generated key, the answer holds the key in its first cell. -/
def insert (d : Dialect) (table : String) (columns : List String)
    (generatedKey : Option String) : String :=
  d.write (insertTokens d table columns generatedKey)

/-- Select the row with a key. -/
def selectByKey (d : Dialect) (table key : String) : String :=
  d.write ([.word "SELECT * FROM ", .ident table, .word " WHERE "] ++ keyTokens key 0)

/-- Change columns of the rows that satisfy a condition. -/
def updateWhere (d : Dialect) (table : String) (columns : List String) (filter : String) : String :=
  d.write (updateTokens table columns) ++ whereClause filter

/-- Change columns of the row with a key, which is the last parameter. -/
def updateByKey (d : Dialect) (table : String) (columns : List String) (key : String) : String :=
  updateWhere d table columns (d.write (keyTokens key columns.length))

/-- Remove the rows that satisfy a condition. -/
def deleteWhere (d : Dialect) (table filter : String) : String :=
  d.write (deleteTokens table) ++ whereClause filter

/-- Remove the row with a key. -/
def deleteByKey (d : Dialect) (table key : String) : String :=
  deleteWhere d table (d.write (keyTokens key 0))

end SqlCompose.Statement
