import SqlCompose.Expr.Operator
import SqlCompose.Predicate.Lexeme

/-!
# The terms that predicate text is made of

A term keeps the structure that query expressions can have: columns, literals, comparisons,
connectives, null tests and membership in a list. Any other expression is kept as its normal text,
which is all that its rejection needs.
-/

namespace SqlCompose.Predicate

/-- A literal. -/
inductive Literal where
  /-- The null literal. -/
  | null
  /-- A truth value. -/
  | bool (b : Bool)
  /-- A number, and whether it is marked as a long one. -/
  | number (digits : String) (long : Bool)
  /-- A quoted text. -/
  | quoted (form : TextForm) (content : String)
  /-- A placeholder. -/
  | placeholder (text : String)
deriving DecidableEq, Repr

/-- An operator with two operands. -/
inductive Infix where
  /-- An operator of query expressions. -/
  | known (op : BinaryOp)
  /-- Any other operator. -/
  | foreign (text : String)
deriving DecidableEq, Repr

/-- An operator in front of its operand. -/
inductive Prefix where
  /-- Negation. -/
  | not
  /-- The minus sign. -/
  | minus
  /-- Any other operator. -/
  | foreign (text : String)
deriving DecidableEq, Repr

/-- A term of a predicate text. -/
inductive Term where
  /-- A column, behind the names that qualify it. -/
  | column (path : List Name)
  /-- A literal. -/
  | literal (l : Literal)
  /-- A term in parentheses. -/
  | group (t : Term)
  /-- A query in parentheses, by its normal form. -/
  | query (text : String)
  /-- An operator with two operands. -/
  | binary (op : Infix) (left right : Term)
  /-- An operator in front of its operand. -/
  | unary (op : Prefix) (operand : Term)
  /-- An operator behind its operand. -/
  | trailing (op : String) (operand : Term)
  /-- A null test. -/
  | isNull (negated : Bool) (t : Term)
  /-- A test for a truth value. -/
  | isTruth (b : Bool) (t : Term)
  /-- Membership in a list. -/
  | inList (negated : Bool) (t : Term) (items : List Term)
  /-- An expression without a counterpart, in its normal form. -/
  | foreign (text : String)

instance : Inhabited Term := ⟨.foreign ""⟩

/-! ## Normal form -/

/-- A literal in its normal form. -/
def Literal.text : Literal → String
  | .null => "NULL"
  | .bool b => if b then "true" else "false"
  | .number digits long => Lexeme.writeNumber digits long
  | .quoted form content => form.write content
  | .placeholder text => text

/-- An operator in its normal form. -/
def Infix.text : Infix → String
  | .known op => op.word
  | .foreign text => text

/-- An operator in its normal form. -/
def Prefix.text : Prefix → String
  | .not => "NOT"
  | .minus => "-"
  | .foreign text => text

/-- The word `NOT` in front of a negated test. -/
def negation (negated : Bool) : String := if negated then "NOT " else ""

mutual

/-- A term in its normal form. -/
def Term.text : Term → String
  | .column path => writePath path
  | .literal l => l.text
  | .group t => "(" ++ t.text ++ ")"
  | .query text => "(" ++ text ++ ")"
  | .binary op left right => left.text ++ " " ++ op.text ++ " " ++ right.text
  | .unary .not t => "NOT " ++ t.text
  | .unary op t => op.text ++ t.text
  | .trailing op t => t.text ++ op
  | .isNull negated t => t.text ++ " IS " ++ negation negated ++ "NULL"
  | .isTruth b t => t.text ++ " IS " ++ (if b then "TRUE" else "FALSE")
  | .inList negated t items =>
    t.text ++ " " ++ negation negated ++ "IN (" ++ ", ".intercalate (Term.texts items) ++ ")"
  | .foreign text => text

/-- Terms in their normal forms. -/
def Term.texts : List Term → List String
  | [] => []
  | t :: ts => t.text :: Term.texts ts

end

end SqlCompose.Predicate
