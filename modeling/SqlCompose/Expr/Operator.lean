/-!
# Operators of query expressions

The comparisons and connectives of predicates, the two operations on one operand, and the named
steps that a query is made of.
-/

namespace SqlCompose

/-- An operator with two operands. -/
inductive BinaryOp where
  /-- Equality. -/
  | eq
  /-- Inequality. -/
  | ne
  /-- Less than. -/
  | lt
  /-- At most. -/
  | le
  /-- Greater than. -/
  | gt
  /-- At least. -/
  | ge
  /-- Conjunction. -/
  | and
  /-- Disjunction. -/
  | or
deriving DecidableEq, Repr

namespace BinaryOp

/-- All operators with two operands. -/
def all : List BinaryOp := [.eq, .ne, .lt, .le, .gt, .ge, .and, .or]

/-- Whether the operands are predicates. -/
def isLogical : BinaryOp → Bool
  | .and | .or => true
  | _ => false

/-- Whether the operator tests for equality or inequality. -/
def isEquality : BinaryOp → Bool
  | .eq | .ne => true
  | _ => false

/-- The sign or word of an operator. -/
def word : BinaryOp → String
  | .eq => "="
  | .ne => "<>"
  | .lt => "<"
  | .le => "<="
  | .gt => ">"
  | .ge => ">="
  | .and => "AND"
  | .or => "OR"

/-- An operator between blanks. -/
def text (op : BinaryOp) : String := " " ++ op.word ++ " "

/-- The name of an operator in diagnostics. -/
def diagnostic : BinaryOp → String
  | .eq => "Eq"
  | .ne => "NotEq"
  | .lt => "Lt"
  | .le => "LtEq"
  | .gt => "Gt"
  | .ge => "GtEq"
  | .and => "And"
  | .or => "Or"

end BinaryOp

/-- An operator with one operand. -/
inductive UnaryOp where
  /-- Negation. -/
  | not
  /-- A change of type; the value stays. -/
  | convert
deriving DecidableEq, Repr

/-- The name of an operator in diagnostics. -/
def UnaryOp.diagnostic : UnaryOp → String
  | .not => "Not"
  | .convert => "Convert"

/-- A named step of a query, or the membership test. -/
inductive Operator where
  /-- Keep the rows that satisfy a predicate. -/
  | filter
  /-- The first row, which has to exist. -/
  | first
  /-- The first row, if there is one. -/
  | firstOrDefault
  /-- One row, which has to exist. -/
  | single
  /-- One row, if there is one. -/
  | singleOrDefault
  /-- At most so many rows. -/
  | take
  /-- The rows after so many. -/
  | skip
  /-- Sort by a column. -/
  | orderBy
  /-- Sort by a column, the largest first. -/
  | orderByDescending
  /-- Whether there is a row. -/
  | any
  /-- How many rows there are. -/
  | count
  /-- Keep some columns. -/
  | select
  /-- Whether a collection holds an item. -/
  | contains
deriving DecidableEq, Repr

namespace Operator

/-- All named operators. -/
def all : List Operator :=
  [.filter, .first, .firstOrDefault, .single, .singleOrDefault, .take, .skip, .orderBy,
    .orderByDescending, .any, .count, .select, .contains]

/-- The name of an operator. -/
def name : Operator → String
  | .filter => "Where"
  | .first => "First"
  | .firstOrDefault => "FirstOrDefault"
  | .single => "Single"
  | .singleOrDefault => "SingleOrDefault"
  | .take => "Take"
  | .skip => "Skip"
  | .orderBy => "OrderBy"
  | .orderByDescending => "OrderByDescending"
  | .any => "Any"
  | .count => "Count"
  | .select => "Select"
  | .contains => "Contains"

/-- The operator with a name. -/
def ofName? (name : String) : Option Operator := all.find? fun op => op.name == name

/-- Every operator is found under its name. -/
theorem ofName?_name (op : Operator) : ofName? op.name = some op := by
  cases op <;> decide

end Operator

end SqlCompose
