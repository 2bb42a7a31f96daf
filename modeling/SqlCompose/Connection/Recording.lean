import SqlCompose.Connection.Basic

/-!
# Connections that keep a record

A recording connection answers queries with results given beforehand, and every modification with
the same number of rows. It counts how often it was opened and closed and keeps the statements that
came while it was open.
-/

namespace SqlCompose

/-- A statement with its parameters. -/
structure RecordedStatement where
  /-- The text of the statement. -/
  sql : String
  /-- The parameters. -/
  params : List Value

/-- The state of a recording connection. -/
structure Recording where
  /-- What the next queries answer. -/
  results : List ResultSet := []
  /-- What modifications answer. -/
  affected : UInt64 := 0
  /-- Whether the connection is open. -/
  isOpen : Bool := false
  /-- How often it was opened. -/
  opens : Nat := 0
  /-- How often it was closed. -/
  closes : Nat := 0
  /-- The statements so far, the first one first. -/
  statements : List RecordedStatement := []

namespace Recording

/-- Open the connection. -/
def opening : Run Recording Unit := fun r =>
  (.done (), { r with isOpen := true, opens := r.opens + 1 })

/-- Close the connection. -/
def closing : Run Recording Unit := fun r =>
  (.done (), { r with isOpen := false, closes := r.closes + 1 })

/-- Keep a statement. -/
def keep (sql : String) (params : List Value) : Run Recording Unit := fun r =>
  if r.isOpen then (.done (), { r with statements := r.statements ++ [⟨sql, params⟩] })
  else (.failed (.dataAccess "connection is not open"), r)

/-- Run a statement for its rows. -/
def query (sql : String) (params : List Value) : Run Recording ResultSet := do
  keep sql params
  fun r => (.done (r.results.head?.getD .empty), { r with results := r.results.drop 1 })

/-- Run a statement for the number of rows it affects. -/
def modify (sql : String) (params : List Value) : Run Recording UInt64 := do
  keep sql params
  fun r => (.done r.affected, r)

/-- The connection that keeps a record. -/
def connection (d : Dialect) : Connection Recording where
  dialect := d
  isOpen r := r.isOpen
  opening := opening
  closing := closing
  query := query
  modify := modify

end Recording

end SqlCompose
