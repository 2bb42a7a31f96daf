import SqlCompose.Error
import SqlCompose.Expr.Operator
import SqlCompose.Value.Basic

/-!
# Query expressions

A query is a tree: every step is a call that wraps the query it extends, from the table outwards.
Predicates, column references and values are the arguments of the steps. The functions here build
the trees; none of them looks into the trees it is given.
-/

namespace SqlCompose

/-! ## Captured values -/

/-- A value that the program holds, and the members read from it one after the other. -/
structure Captured where
  /-- The value. -/
  root : Value
  /-- The names of the members. -/
  path : List String

namespace Captured

/-- The value that a path of members leads to; a null on the way is the result. -/
def follow : Value → List String → Except QueryError Value
  | v, [] => .ok v
  | .null, _ :: _ => .ok .null
  | .record fields, name :: path =>
    match Fields.get? fields name with
    | some v => follow v path
    | none => .error (.unsupportedShape (.missingMember name))
  | v, name :: _ => .error (.unsupportedShape (.memberOfValue name v.typeName))

/-- The value captured. -/
def evaluate (c : Captured) : Except QueryError Value := follow c.root c.path

/-- A captured value without members. -/
def ofValue (v : Value) : Captured := ⟨v, []⟩

end Captured

/-! ## Expressions -/

/-- A query expression. -/
inductive Expr where
  /-- The table of the query. -/
  | source
  /-- A value written into the query. -/
  | constant (v : Value)
  /-- A column of the row. -/
  | column (name : String)
  /-- A captured value. -/
  | captured (c : Captured)
  /-- A comparison or a connective. -/
  | binary (op : BinaryOp) (left right : Expr)
  /-- A negation or a change of type. -/
  | unary (op : UnaryOp) (operand : Expr)
  /-- A named step; the first argument of a step is the query it extends. -/
  | call (op : Operator) (args : List Expr)
  /-- A function of the row. -/
  | lambda (param : String) (body : Expr)
  /-- The row itself. -/
  | param (name : String)
  /-- An object literal of columns. -/
  | construct (members : List Expr)

namespace Expr

instance : Inhabited Expr := ⟨.source⟩

/-- The name of the parameter of every function built here. -/
def rowParam : String := "m"

/-- A column of the row. -/
def col (name : String) : Expr := .column name

/-- A value written into the query. -/
def lit (v : Value) : Expr := .constant v

/-- The function of the row with this body. -/
def toLambda (body : Expr) : Expr := .lambda rowParam body

/-- The negation of a predicate. -/
def negate (x : Expr) : Expr := .unary .not x

/-- A change of type. -/
def convert (x : Expr) : Expr := .unary .convert x

/-- Whether a collection holds the value of an operand. -/
def isIn (x collection : Expr) : Expr := .call .contains [collection, x]

/-- A number of rows; it is at most the largest signed word. -/
def rowCount (n : UInt64) : Expr :=
  .constant (.int (if n.toNat < 0x8000000000000000 then Int64.ofNat n.toNat else Int64.maxValue))

/-- A chain of one connective, grouped to the left. -/
def chain (op : BinaryOp) (x : Expr) (terms : List Expr) : Expr :=
  terms.foldl (fun left right => .binary op left right) x

/-- A step given by its name. -/
def callNamed (name : String) (args : List Expr) : Except QueryError Expr :=
  match Operator.ofName? name with
  | some op => .ok (.call op args)
  | none => .error (.unsupportedOperator name)

end Expr

/-! ## Projections -/

/-- What a selection keeps of a row. -/
inductive Projection where
  /-- The whole row. -/
  | identity
  /-- One column. -/
  | column (name : String)
  /-- Several columns. -/
  | columns (names : List String)
deriving DecidableEq, Repr

/-- The function of the row that keeps what a projection names. -/
def Projection.toLambda : Projection → Expr
  | .identity => (Expr.param Expr.rowParam).toLambda
  | .column name => (Expr.col name).toLambda
  | .columns names => (Expr.construct (names.map Expr.col)).toLambda

end SqlCompose
