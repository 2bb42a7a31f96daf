import SqlCompose.Connection.Basic
import SqlCompose.Query.Select
import SqlCompose.Session.Shape

/-!
# Providers

A provider owns one connection and lets one operation at a time use it. The connection is opened
when an operation first needs it. An operation that breaks off while it holds the connection makes
it unusable for good, because nobody knows what state it was left in.
-/

namespace SqlCompose

/-- A connection that one operation at a time may hold. -/
structure Held (σ : Type) where
  /-- The state of the connection. -/
  inner : σ
  /-- Whether an operation has broken off while it held the connection. -/
  poisoned : Bool := false

namespace Held

variable {σ α : Type}

/-- Hold the connection during an operation. -/
def hold (x : Run σ α) : Run (Held σ) α := fun h =>
  if h.poisoned then (.failed .lockPoisoned, h)
  else
    match x h.inner with
    | (.broken, s) => (.broken, ⟨s, true⟩)
    | (o, s) => (o, ⟨s, false⟩)

end Held

/-! ## Rows -/

namespace ResultSet

/-- A cell in the place of its row; a row without cells has none. -/
def decodeCell {α : Type} (decode : Json → Except Json.DecodeFault α) (row : List Value) :
    Outcome α :=
  match row with
  | [] => .broken
  | cell :: _ =>
    match decode cell.toJson with
    | .ok a => .done a
    | .error fault => .failed (.undecodable fault)

/-- A row read as a record, or, of a result with one column, as its cell. -/
def decodeRow {α : Type} (decode : Json → Except Json.DecodeFault α) (r : ResultSet) (e : Entity)
    (row : List Value) : Outcome α :=
  match decode (.object (r.record e row)) with
  | .ok a => .done a
  | .error fault =>
    if r.columns.length = 1 then decodeCell decode row else .failed (.undecodable fault)

/-- Rows read one after the other, until one is not. -/
def decodeRows {α : Type} (decode : Json → Except Json.DecodeFault α) (r : ResultSet)
    (e : Entity) : List (List Value) → Outcome (List α)
  | [] => .done []
  | row :: rows =>
    match r.decodeRow decode e row with
    | .done a =>
      match decodeRows decode r e rows with
      | .done as => .done (a :: as)
      | .failed error => .failed error
      | .broken => .broken
    | .failed error => .failed error
    | .broken => .broken

/-- All rows, read. -/
def materialize {α : Type} (decode : Json → Except Json.DecodeFault α) (r : ResultSet)
    (e : Entity) : Outcome (List α) :=
  r.decodeRows decode e r.rows

end ResultSet

/-! ## Operations -/

namespace Connection

variable {σ α : Type} (c : Connection σ)

/-- Run a statement for its rows, on the open connection. -/
def execute (sql : String) (params : List Value) : Run (Held σ) ResultSet :=
  Held.hold do
    c.ensureOpen
    c.query sql params

/-- Run a statement for the number of rows it affects, on the open connection. -/
def executeNonQuery (sql : String) (params : List Value) : Run (Held σ) UInt64 :=
  Held.hold do
    c.ensureOpen
    c.modify sql params

/-- Run a compiled query. -/
def run (q : CompiledQuery) : Run (Held σ) ResultSet := c.execute q.sql q.params

/-- Run a compiled query and read its rows. -/
def fetch (decode : Json → Except Json.DecodeFault α) (e : Entity) (q : CompiledQuery) :
    Run (Held σ) (List α) := do
  let r ← c.run q
  Run.ofOutcome (r.materialize decode e)

/-- Run a compiled query for the first cell of its first row; without rows it is null. -/
def scalar (q : CompiledQuery) : Run (Held σ) Value := do
  pure ((← c.run q).scalar?.getD .null)

/-- Close the connection if it is open. -/
def close : Run (Held σ) Unit := Held.hold c.ensureClosed

end Connection

end SqlCompose
