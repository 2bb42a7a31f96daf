import SqlCompose.Connection.Run
import SqlCompose.Dialect.Basic
import SqlCompose.ResultSet

/-!
# Connections

A connection is known by what it does in a state of its own: it can be opened and closed, and runs
statements that answer with rows or with a number of rows.
-/

namespace SqlCompose

/-- A connection with states of a type. -/
structure Connection (σ : Type) where
  /-- The dialect of its statements. -/
  dialect : Dialect
  /-- Whether it is open. -/
  isOpen : σ → Bool
  /-- Open it. -/
  opening : Run σ Unit
  /-- Close it. -/
  closing : Run σ Unit
  /-- Run a statement for its rows. -/
  query : String → List Value → Run σ ResultSet
  /-- Run a statement for the number of rows it affects. -/
  modify : String → List Value → Run σ UInt64

namespace Connection

variable {σ : Type}

/-- Open a connection unless it is open. -/
def ensureOpen (c : Connection σ) : Run σ Unit := fun s =>
  if c.isOpen s then (.done (), s) else c.opening s

/-- Close a connection if it is open. -/
def ensureClosed (c : Connection σ) : Run σ Unit := fun s =>
  if c.isOpen s then c.closing s else (.done (), s)

end Connection

end SqlCompose
