import SqlCompose.Dialect.Token
import SqlCompose.Entity.Basic
import SqlCompose.Expr.Basic

/-!
# Drafts

A walk over an expression fills a draft in one pass: the tokens of the condition, the
values to bind in the order of their parameters, and what the steps say about rows and columns.
A draft belongs to no dialect; it names columns as the database does.
-/

namespace SqlCompose

/-- What a query answers with. -/
inductive ResultMode where
  /-- Whole rows. -/
  | all
  /-- The number of rows. -/
  | count
  /-- Whether there is a row. -/
  | any
  /-- Some columns of the rows. -/
  | project
deriving DecidableEq, Repr

/-- The name of a mode. -/
def ResultMode.name : ResultMode → String
  | .all => "All"
  | .count => "Count"
  | .any => "Any"
  | .project => "Project"

/-- The mode with a name. -/
def ResultMode.ofName? (name : String) : Option ResultMode :=
  [ResultMode.all, .count, .any, .project].find? fun m => m.name == name

/-- A column to sort by. -/
structure OrderBy where
  /-- The column; in a draft its name, in a plan its quoted name. -/
  column : String
  /-- Whether the largest comes first. -/
  descending : Bool
deriving DecidableEq, Repr

/-- What a selection lists. -/
inductive SelectList where
  /-- All columns. -/
  | all
  /-- No column, so a constant stands for the row. -/
  | nothing
  /-- Columns by their names in the database. -/
  | columns (names : List String)
deriving DecidableEq, Repr

/-- A query while its expression is walked over. -/
structure Draft where
  /-- The condition. -/
  tokens : List Token
  /-- The values to bind. -/
  values : List Value
  /-- Whether a connective that comes next needs parentheses. -/
  nested : Bool
  /-- Whether the condition consists of parenthesised groups. -/
  grouped : Bool
  /-- How many rows are skipped. -/
  skip : Option UInt64
  /-- How many rows are taken. -/
  take : Option UInt64
  /-- The ordering. -/
  order : Option OrderBy
  /-- What the query answers with. -/
  mode : ResultMode
  /-- The columns that are kept. -/
  selected : Option SelectList

namespace Draft

/-- The draft that binds some values before any condition. -/
def ofBound (values : List Value) : Draft :=
  ⟨[], values, false, false, none, none, none, .all, none⟩

/-- The draft of a query on which nothing is known. -/
def empty : Draft := ofBound []

/-- Write a token. -/
def put (d : Draft) (t : Token) : Draft := { d with tokens := d.tokens ++ [t] }

/-- Write the next parameter and bind a value to it. -/
def bind (d : Draft) (v : Value) : Draft :=
  { d.put (.param d.values.length) with values := d.values ++ [v] }

/-- Write a value: null as the null operand, every other scalar as a parameter. -/
def value (d : Draft) (v : Value) : Except QueryError Draft :=
  match v with
  | .null => .ok (d.put .null)
  | .list _ => .error (.unsupportedShape (.compoundOperand v.typeName))
  | .record _ => .error (.unsupportedShape (.compoundOperand v.typeName))
  | v => .ok (d.bind v)

/-- Write several values, separated by commas. -/
def valueList (d : Draft) : List Value → Except QueryError Draft
  | [] => .ok d
  | [v] => d.value v
  | v :: vs => do ((← d.value v).put (.word ", ")).valueList vs

/-- Write the predicate that holds always, or never. -/
def truth (d : Draft) (b : Bool) : Draft := { d.put (.truth b) with nested := true }

/-- Write the test of a column for a truth value. -/
def boolTest (d : Draft) (column : String) (b : Bool) : Draft :=
  { ((d.put (.ident column)).put (.op .eq)).bind (.bool b) with nested := true }

/-- Say whether a connective that comes next needs parentheses. -/
def setNested (d : Draft) (nested : Bool) : Draft := { d with nested := nested }

/-- Open a group that has to hold besides the condition so far; the first time, the condition so
far becomes a group too. -/
def openGroup (d : Draft) : Draft :=
  let tokens :=
    if d.grouped then d.tokens else [.word "("] ++ d.tokens ++ [.word ")"]
  { d with tokens := tokens ++ [.op .and, .word "("], grouped := true }

end Draft

end SqlCompose
