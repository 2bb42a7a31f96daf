import SqlCompose.Query.Plan

/-!
# Selections

A plan becomes one statement. `Dialect.pageForm` chooses the form in which rows are skipped and
limited, and `PageForm.write` writes it, so that what a statement means can be said of the form.
-/

namespace SqlCompose

/-! ## Pages -/

/-- Which rows a statement answers with. -/
structure Page where
  /-- How many rows are skipped. -/
  skip : Option UInt64
  /-- How many rows are taken. -/
  take : Option UInt64
  /-- The ordering. -/
  order : Option OrderBy
deriving DecidableEq, Repr

namespace Page

/-- All rows in any order. -/
def all : Page := ⟨none, none, none⟩

/-- Whether rows are skipped or limited. -/
def isPaged (p : Page) : Bool := p.skip.isSome || p.take.isSome

/-- The rows of a plan. A count is over all rows; a test for existence takes one row and
keeps the ordering only if it skips rows. -/
def ofPlan (t : Plan) : Page :=
  match t.mode with
  | .count => all
  | .any =>
    let skip := t.skip.filter fun n => decide (0 < n)
    ⟨skip, some 1, if skip.isSome then t.order else none⟩
  | .all | .project => ⟨t.skip, t.take, t.order⟩

end Page

/-- The row numbers that a numbered selection keeps. -/
inductive NumberRange where
  /-- From one number to another. -/
  | between (first last : UInt64)
  /-- All beyond a number. -/
  | beyond (last : UInt64)
deriving DecidableEq, Repr

/-- The forms in which a statement skips and limits rows. -/
inductive PageForm where
  /-- All rows. -/
  | plain (order : Option OrderBy)
  /-- The first rows. -/
  | top (count : UInt64) (order : Option OrderBy)
  /-- The rows after an offset. -/
  | offset (skip : UInt64) (take : Option UInt64) (order : Option OrderBy)
  /-- So many rows after others. -/
  | limit (skip take : UInt64) (order : Option OrderBy)
  /-- Rows by their number in an ordering. -/
  | numbered (range : NumberRange) (order : OrderBy)
deriving DecidableEq, Repr

namespace Dialect

/-- The largest row count, which stands for no limit. -/
def noLimit : UInt64 := 0xFFFFFFFFFFFFFFFF

/-- The form in which a dialect skips and limits rows. -/
def pageForm (d : Dialect) (p : Page) : Except QueryError PageForm :=
  let skip := p.skip.getD 0
  match d.paging with
  | .limit =>
    .ok (if p.isPaged then .limit skip (p.take.getD noLimit) p.order else .plain p.order)
  | .offsetFetch requiresOrder =>
    if p.isPaged && p.order.isNone && requiresOrder then
      if 0 < skip then .error .missingOrder
      else
        match p.take with
        | some n => .ok (.top n none)
        | none => .ok (.plain none)
    else if p.isPaged then .ok (.offset skip p.take p.order)
    else .ok (.plain p.order)
  | .rowNumber =>
    if skip = 0 then
      match p.take with
      | some n => .ok (.top n p.order)
      | none => .ok (.plain p.order)
    else
      match p.order with
      | none => .error .missingOrder
      | some order =>
        match p.take with
        | some n => .ok (.numbered (.between (skip + 1) (skip + n)) order)
        | none => .ok (.numbered (.beyond skip) order)

end Dialect

/-! ## Text -/

/-- The parts that every form of a selection has. -/
structure SelectParts where
  /-- The columns. -/
  list : String
  /-- The quoted table. -/
  table : String
  /-- The condition with its keyword, or nothing. -/
  filter : String

namespace SelectParts

/-- Columns, table and condition. -/
def tail (s : SelectParts) : String := s.list ++ " FROM " ++ s.table ++ s.filter

end SelectParts

/-- An ordering with its keywords. -/
def OrderBy.write (o : OrderBy) : String :=
  "ORDER BY " ++ o.column ++ (if o.descending then " desc" else "")

/-- An ordering behind a statement, if there is one. -/
def orderClause (order : Option OrderBy) : String :=
  match order with
  | some o => " " ++ o.write
  | none => ""

/-- The name of the column of row numbers. -/
def rowNumberName : String := "__row_number"

/-- The name of the numbered subquery. -/
def pagedName : String := "__paged"

/-- The condition on row numbers. -/
def NumberRange.write (row : String) : NumberRange → String
  | .between first last =>
    row ++ " BETWEEN " ++ toString first.toNat ++ " AND " ++ toString last.toNat
  | .beyond last => row ++ " > " ++ toString last.toNat

namespace PageForm

/-- The columns that a numbered selection lists: its own row numbers are left out if the columns
of the table are known. -/
def outerList (d : Dialect) (e : Entity) (list : String) : String :=
  if list == "*" && !e.columns.isEmpty then
    d.write (commaSeparated (e.columns.map fun c => [.ident c.name]))
  else list

/-- The statement in a form. -/
def write (d : Dialect) (e : Entity) (s : SelectParts) : PageForm → String
  | .plain order => "SELECT " ++ s.tail ++ orderClause order
  | .top n order => "SELECT TOP (" ++ toString n.toNat ++ ") " ++ s.tail ++ orderClause order
  | .offset skip take order =>
    "SELECT " ++ s.tail ++ orderClause order ++ " OFFSET " ++ toString skip.toNat ++ " ROWS" ++
      (match take with
        | some n => " FETCH NEXT " ++ toString n.toNat ++ " ROWS ONLY"
        | none => "") ++ ";"
  | .limit skip take order =>
    "SELECT " ++ s.tail ++ orderClause order ++ " limit " ++ toString skip.toNat ++ "," ++
      toString take.toNat
  | .numbered range order =>
    let row := d.quote rowNumberName
    "SELECT " ++ outerList d e s.list ++ " FROM (SELECT *, ROW_NUMBER() OVER (" ++ order.write ++
      ") AS " ++ row ++ " FROM " ++ s.table ++ s.filter ++ ") AS " ++ d.quote pagedName ++
      " WHERE " ++ range.write row ++ " ORDER BY " ++ row

end PageForm

/-! ## Compiled queries -/

/-- A statement with the values to bind. -/
structure CompiledQuery where
  /-- The text of the statement. -/
  sql : String
  /-- The values to bind, in the order of their parameters. -/
  params : List Value
  /-- What the statement answers with. -/
  mode : ResultMode
  /-- The dialect of the text. -/
  dialect : Dialect

namespace Dialect

/-- The columns that a statement lists. -/
def listOf (t : Plan) : String :=
  match t.mode with
  | .all => "*"
  | .count => "COUNT(*)"
  | .any => "1"
  | .project => t.projection.getD "*"

/-- The statement of a plan. -/
def renderSelect (d : Dialect) (e : Entity) (t : Plan) :
    Except QueryError CompiledQuery := do
  let form ← d.pageForm (Page.ofPlan t)
  let filter := if t.fragment.isEmpty then "" else " WHERE " ++ t.fragment
  .ok ⟨form.write d e ⟨listOf t, d.quote e.table, filter⟩, t.params, t.mode, d⟩

/-- The statement of a query. -/
def compile (d : Dialect) (e : Entity) (root : Expr) : Except QueryError CompiledQuery := do
  d.renderSelect e (← d.planQuery e root)

end Dialect

end SqlCompose
