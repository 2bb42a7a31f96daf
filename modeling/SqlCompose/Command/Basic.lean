import SqlCompose.Query.Draft

/-!
# Commands

What the program can be asked to do: to compile a query for a dialect, to run it over a saved
connection, or to list the saved connections.
-/

namespace SqlCompose

/-- What a query is to answer with. -/
inductive Wanted where
  /-- Its rows. -/
  | rows
  /-- The number of its rows. -/
  | count
  /-- Whether it has a row. -/
  | existence
deriving DecidableEq, Repr

/-- A query as it is asked for. -/
structure QueryRequest where
  /-- The table. -/
  table : String
  /-- The columns of the table, each with the name of its type after a colon. -/
  columns : List String := []
  /-- A predicate on the rows. -/
  filter : Option String := none
  /-- The order of the rows. -/
  order : Option OrderBy := none
  /-- How many rows to leave out first. -/
  skip : Option UInt64 := none
  /-- How many rows to take at most. -/
  take : Option UInt64 := none
  /-- What to answer with. -/
  wanted : Wanted := .rows
  /-- The columns to select; all of them if there are none. -/
  select : List String := []
deriving DecidableEq, Repr

/-- What the program is asked to do. -/
inductive Command where
  /-- To compile a query for the dialect of a provider. -/
  | compile (provider : String) (request : QueryRequest)
  /-- To run a query over the saved connection with a name. -/
  | run (connection : String) (request : QueryRequest)
  /-- To list the saved connections. -/
  | connections
  /-- To tell how the program is used. -/
  | help
deriving DecidableEq, Repr

end SqlCompose
