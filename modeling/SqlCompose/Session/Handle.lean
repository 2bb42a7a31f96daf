import SqlCompose.Expr.Diagnostic
import SqlCompose.Session.Provider
import SqlCompose.Value.Integer

/-!
# Query handles

A handle is a query over one table that has not been run. Its operations make longer queries and
leave the handle itself alone; the ones that answer with rows or numbers compile the query and run
one statement.
-/

namespace SqlCompose

/-- A query over a table. -/
structure Handle where
  /-- The query. -/
  root : Expr
  /-- The table. -/
  entity : Entity
  /-- What a row is read as. -/
  shape : Shape

namespace Handle

/-- The query for all rows of a table. -/
def ofEntity (e : Entity) (shape : Shape) : Handle := ⟨.source, e, shape⟩

/-! ## Longer queries -/

/-- A query with one more step. -/
def step (h : Handle) (op : Operator) (arg : Expr) : Handle :=
  { h with root := .call op [h.root, arg] }

/-- The rows that satisfy a predicate too. -/
def filter (h : Handle) (predicate : Expr) : Handle := h.step .filter predicate.toLambda

/-- The rows in the order of a column. -/
def orderBy (h : Handle) (column : String) : Handle := h.step .orderBy (Expr.col column).toLambda

/-- The rows in the reverse order of a column. -/
def orderByDescending (h : Handle) (column : String) : Handle :=
  h.step .orderByDescending (Expr.col column).toLambda

/-- The rows without the first ones. -/
def skip (h : Handle) (n : UInt64) : Handle := h.step .skip (.rowCount n)

/-- At most so many rows. -/
def take (h : Handle) (n : UInt64) : Handle := h.step .take (.rowCount n)

/-- What a projection keeps of the rows, read at another shape. -/
def select (h : Handle) (p : Projection) (shape : Shape) : Handle :=
  { h.step .select p.toLambda with shape := shape }

/-! ## Compiled queries -/

/-- The query compiled. -/
def build (h : Handle) (d : Dialect) : Except QueryError CompiledQuery := d.compile h.entity h.root

/-- The query with a last step, which may have a predicate, compiled. -/
def buildTerminal (h : Handle) (d : Dialect) (op : Operator) (predicate : Option Expr) :
    Except QueryError CompiledQuery :=
  d.compile h.entity (.call op (h.root :: (predicate.map Expr.toLambda).toList))

/-- A handle in diagnostics. -/
def diagnostic (h : Handle) : String :=
  "QueryHandle \x7b table: " ++ Text.diagnose h.entity.table ++ ", root: " ++ h.root.diagnostic ++
    " \x7d"

/-! ## Running queries -/

variable {σ : Type}

/-- All rows. -/
def toList (h : Handle) (c : Connection σ) : Run (Held σ) (List Datum) := do
  c.fetch h.shape.decode h.entity (← Run.lift (h.build c.dialect))

/-- The first row that a query with a last step answers with. -/
def one? (h : Handle) (c : Connection σ) (op : Operator) (predicate : Option Expr) :
    Run (Held σ) (Option Datum) := do
  let q ← Run.lift (h.buildTerminal c.dialect op predicate)
  let rows ← c.fetch h.shape.decode h.entity q
  pure rows.head?

/-- The first row that a query with a last step answers with; there has to be one. -/
def one (h : Handle) (c : Connection σ) (op : Operator) (predicate : Option Expr) :
    Run (Held σ) Datum := do
  match ← h.one? c op predicate with
  | some row => pure row
  | none => Run.fail .noRows

/-- The number that a counting query answers with; no answer counts as none. -/
def countOf : Value → Except QueryError Int64
  | .null => .ok 0
  | v =>
    match v.asInt64? with
    | some n => .ok n
    | none => .error (.dataAccess ("count returned " ++ v.display))

/-- The number of rows. -/
def count (h : Handle) (c : Connection σ) (predicate : Option Expr) : Run (Held σ) Int64 := do
  let q ← Run.lift (h.buildTerminal c.dialect .count predicate)
  Run.lift (countOf (← c.scalar q))

/-- Whether there is a row. -/
def any (h : Handle) (c : Connection σ) (predicate : Option Expr) : Run (Held σ) Bool := do
  let q ← Run.lift (h.buildTerminal c.dialect .any predicate)
  pure (decide (0 < (← c.run q).rowCount))

end Handle

end SqlCompose
