import SqlCompose.Query.Draft
import SqlCompose.Query.NullTest

/-!
# Query plans

`visit` walks over an expression and extends a draft. The flag says whether a predicate is wanted:
a column of truth values, or a truth value itself, then becomes a test. `Dialect.planQuery` and
`Dialect.planFilter` write the finished draft in a dialect.
-/

namespace SqlCompose

/-! ## Columns and operands -/

namespace Entity

/-- The name of a column in the database; an entity without columns accepts every name. -/
def columnName (e : Entity) (name : String) : Except QueryError String :=
  if e.columns.isEmpty then .ok name
  else
    match e.find? name with
    | some c => .ok c.name
    | none => .error (.unknownColumn e.table name)

/-- Whether a name stands for a column of truth values. -/
def isBoolColumn (e : Entity) (name : String) : Bool :=
  (e.find? name).any fun c => c.kind == .bool

/-- The column that a selector names. -/
def member (e : Entity) : Expr → Except QueryError String
  | .lambda _ body => e.member body
  | .unary .convert operand => e.member operand
  | .column name => e.columnName name
  | _ => .error (.unsupportedShape .notAMember)

/-- The columns that a projection keeps. -/
def projection (e : Entity) (selector : Expr) : Except QueryError SelectList :=
  let (param, body) :=
    match selector with
    | .lambda p body => (some p, body)
    | body => (none, body)
  match body with
  | .param name =>
    if param.all (· == name) then .ok .all else .error (.unsupportedShape .badProjection)
  | .construct [] => .ok .nothing
  | .construct members => do .ok (.columns (← members.mapM e.member))
  | .column _ => do .ok (.columns [← e.member body])
  | .unary _ _ => do .ok (.columns [← e.member body])
  | _ => .error (.unsupportedShape .badProjection)

end Entity

namespace Expr

/-- Whether an operand is known to be null. -/
def isNull : Expr → Except QueryError Bool
  | .constant v => .ok v.isNull
  | .captured c => do .ok (← c.evaluate).isNull
  | .unary .convert operand => operand.isNull
  | _ => .ok false

/-- Whether the operands of a comparison change places, so that a null comes second. -/
def nullComesFirst (op : BinaryOp) (left right : Expr) : Except QueryError Bool := do
  if op.isEquality then
    if ← left.isNull then .ok (!(← right.isNull)) else .ok false
  else .ok false

/-- The row count that a step is given. -/
def rowCount? : Expr → Option UInt64
  | .constant (.int n) => if 0 ≤ n then some n.toUInt64 else none
  | _ => none

/-- The items of the collection of a membership test; null is the empty collection. -/
def items (collection : Expr) : Except QueryError (List Value) := do
  let v ← match collection with
    | .captured c => c.evaluate
    | .constant v => .ok v
    | _ => .error (.unsupportedShape .unknownCollection)
  match v with
  | .list items => .ok items
  | .null => .ok []
  | v => .error (.unsupportedShape (.notACollection v.typeName))

end Expr

namespace Query

/-! ## Steps -/

/-- Write a membership test. The column is looked up only if the collection has items. -/
def contains (e : Entity) (collection item : Expr) (d : Draft) : Except QueryError Draft := do
  let items ← collection.items
  if items.isEmpty then .ok ((d.setNested true).truth false)
  else
    let column ← e.member item
    let d := ((d.setNested true).put (.ident column)).put (.word " IN (")
    .ok ((← d.valueList items).put (.word ")"))

/-- Whether a step has a predicate as its argument. -/
def takesPredicate : Operator → Bool
  | .filter | .first | .firstOrDefault | .single | .singleOrDefault | .any | .count => true
  | _ => false

/-- What a step with a predicate says about rows. -/
def afterFilter (op : Operator) (d : Draft) : Draft :=
  match op with
  | .first | .firstOrDefault | .single | .singleOrDefault => { d with take := some 1 }
  | .any => { d with mode := .any, take := some 1 }
  | .count => { d with mode := .count }
  | _ => d

/-- What a step without a predicate says, given its argument. -/
def applyStep (e : Entity) (op : Operator) (arg : Option Expr) (d : Draft) :
    Except QueryError Draft :=
  match op with
  | .take =>
    match arg.bind Expr.rowCount? with
    | some n => .ok { d with take := some n }
    | none => .error (.unsupportedShape (.badRowCount op))
  | .skip =>
    match arg.bind Expr.rowCount? with
    | some n => .ok { d with skip := some n }
    | none => .error (.unsupportedShape (.badRowCount op))
  | .orderBy | .orderByDescending =>
    match arg with
    | some selector => do
      .ok { d with order := some ⟨← e.member selector, op == .orderByDescending⟩ }
    | none => .error (.unsupportedShape (.missingKeySelector op))
  | .select =>
    match arg with
    | some selector => do
      .ok { d with selected := some (← e.projection selector), mode := .project }
    | none => .error (.unsupportedShape .missingProjection)
  | _ => .ok d

/-! ## The walk -/

/-- Write an expression, as a predicate or as an operand. -/
def visit (e : Entity) : Bool → Expr → Draft → Except QueryError Draft
  | _, .source, d => .ok d
  | predicate, .constant v, d =>
    match predicate, v with
    | true, .bool b => .ok (d.truth b)
    | _, v => d.value v
  | predicate, .column name, d => do
    if predicate && e.isBoolColumn name then
      .ok (d.boolTest (← e.columnName name) true)
    else
      .ok (d.put (.ident (← e.columnName name)))
  | predicate, .captured c, d => do
    match predicate, ← c.evaluate with
    | true, .bool b => .ok (d.truth b)
    | _, v => d.value v
  | _, .binary op left right, d => do
    let swap ← Expr.nullComesFirst op left right
    let wrap := op.isLogical && d.nested
    let d := d.setNested true
    let d := if wrap then d.put (.word "(") else d
    let d ← if swap then visit e op.isLogical right d else visit e op.isLogical left d
    let d := d.put (.op op)
    let d ← if swap then visit e op.isLogical left d else visit e op.isLogical right d
    .ok (if wrap then d.put (.word ")") else d)
  | predicate, .unary .convert operand, d => visit e predicate operand d
  | _, .unary .not operand, d =>
    match negatedColumn? operand with
    | some name => do .ok (d.boolTest (← e.columnName name) false)
    | none => do
      let d ← visit e true operand ((d.put (.word "NOT (")).setNested false)
      .ok ((d.setNested true).put (.word ")"))
  | predicate, .lambda _ body, d => visit e predicate body d
  | _, .param _, _ => .error (.unsupportedShape .strayParameter)
  | _, .construct _, _ => .error (.unsupportedShape .strayObject)
  | _, .call op [], _ =>
    .error (.unsupportedShape
      (if op = .contains then .membershipArguments else .missingSource op))
  | _, .call op [src], d => do
    if op = .contains then .error (.unsupportedShape .membershipArguments)
    let d ← visit e false src d
    if takesPredicate op then .ok (afterFilter op d) else applyStep e op none d
  | _, .call op (src :: arg :: rest), d => do
    if op = .contains then
      if rest.isEmpty then contains e src arg d
      else .error (.unsupportedShape .membershipArguments)
    else
      let d ← visit e false src d
      if takesPredicate op then
        let first := d.tokens.isEmpty
        let d := if first then d else d.openGroup
        let d ← visit e true arg (d.setNested false)
        let d := d.setNested true
        .ok (afterFilter op (if first then d else d.put (.word ")")))
      else applyStep e op (some arg) d
where
  /-- The column of truth values that an operand is. -/
  negatedColumn? : Expr → Option String
    | .column name => if e.isBoolColumn name then some name else none
    | _ => none

/-- A walk over the table alone leaves the draft as it is. -/
theorem visit_source (e : Entity) (predicate : Bool) (d : Draft) :
    visit e predicate .source d = .ok d := by
  rw [visit]

/-- The draft of a query. -/
def draft (e : Entity) (root : Expr) : Except QueryError Draft := visit e false root Draft.empty

/-- The draft of a predicate whose parameters follow those of values that are bound already. -/
def draftFilter (e : Entity) (predicate : Expr) (bound : List Value) : Except QueryError Draft := do
  .ok ((← visit e true predicate (Draft.ofBound bound)).setNested true)

end Query

/-! ## Plans -/

/-- A query in the words of a dialect, before the statement is put together. -/
structure Plan where
  /-- The condition; it is empty if all rows are wanted. -/
  fragment : String
  /-- The values to bind, in the order of their parameters. -/
  params : List Value
  /-- What the query answers with. -/
  mode : ResultMode
  /-- The columns that are kept. -/
  projection : Option String
  /-- How many rows are skipped. -/
  skip : Option UInt64
  /-- How many rows are taken. -/
  take : Option UInt64
  /-- The ordering. -/
  order : Option OrderBy

namespace Dialect

/-- The text of a list of columns. -/
def selectList (d : Dialect) : SelectList → String
  | .all => "*"
  | .nothing => "0"
  | .columns names => d.write (commaSeparated (names.map fun c => [.ident c]))

/-- A draft in the words of a dialect. -/
def ofDraft (d : Dialect) (draft : Draft) : Plan where
  fragment := NullTest.finish (d.write draft.tokens)
  params := draft.values.map d.param
  mode := draft.mode
  projection := draft.selected.map d.selectList
  skip := draft.skip
  take := draft.take
  order := draft.order.map fun o => ⟨d.quote o.column, o.descending⟩

/-- The plan of a query. -/
def planQuery (d : Dialect) (e : Entity) (root : Expr) : Except QueryError Plan :=
  (Query.draft e root).map d.ofDraft

/-- The plan of a predicate, after values that are bound already. -/
def planFilter (d : Dialect) (e : Entity) (predicate : Expr) (bound : List Value) :
    Except QueryError Plan :=
  (Query.draftFilter e predicate bound).map d.ofDraft

end Dialect

end SqlCompose
