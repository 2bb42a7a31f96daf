import SqlCompose.Binary.Numeral
import SqlCompose.Expr.Basic
import SqlCompose.Predicate.Lexer
import SqlCompose.Predicate.Statement
import SqlCompose.Value.Integer

/-!
# Predicates from text

`Dialect.readPredicate` turns a text into a query expression. The text has to be one condition;
`Term.toExpr` takes the terms that query expressions have and rejects all others with their normal
form. A column is named by the last name of its path.

The grammar, the keywords and the normal forms are those of release 0.53 of `sqlparser` in its
readers for the products. Taken as given of that parser are the texts that it accepts, the term that
it makes of each, and the normal form of what no query expression has. Pivots, samples of tables,
merges, copies, prepared statements, triggers and functions are not read: no predicate has any of
them, and only the wording of a refusal depends on it.
-/

namespace SqlCompose.Predicate

/-! ## Literals -/

/-- The value of a number: an integer of sixty-four bits where possible, else the nearest
floating-point number. -/
def numberValue (digits : String) : Except QueryError Value :=
  match readInt64? digits.toList with
  | some i => .ok (.int i)
  | none =>
    match Double.read? digits.toList with
    | some x => .ok (.float x)
    | none => .error (.unsupportedShape (.badNumber digits))

/-- The value of a literal. -/
def Literal.value : Literal → Except QueryError Value
  | .null => .ok .null
  | .bool b => .ok (.bool b)
  | .number digits _ => numberValue digits
  | .quoted .plain content | .quoted .national content | .quoted .escaped content =>
    .ok (.text content)
  | l => .error (.unsupportedShape (.foreignLiteral l.text))

/-- The value of an item of a list: a literal, or the minus sign and a number. -/
def Term.itemValue : Term → Except QueryError Value
  | .literal l => l.value
  | .unary .minus (.literal (.number digits _)) => numberValue ("-" ++ digits)
  | .unary .minus t => .error (.unsupportedShape (.foreignItem ("-" ++ t.text)))
  | t => .error (.unsupportedShape (.foreignItem t.text))

/-! ## Terms -/

/-- The operator of query expressions that an operator stands for. -/
def Infix.toBinary : Infix → Except QueryError BinaryOp
  | .known op => .ok op
  | .foreign text => .error (.unsupportedShape (.foreignBinary text))

/-- The query expression that a term stands for. -/
def Term.toExpr : Term → Except QueryError Expr
  | .column path => .ok (.col ((path.getLast?.map Name.text).getD ""))
  | .literal l => do .ok (.lit (← l.value))
  | .group t => t.toExpr
  | .binary op left right => do
    let l ← left.toExpr
    let r ← right.toExpr
    .ok (.binary (← op.toBinary) l r)
  | .unary .not t => do .ok (← t.toExpr).negate
  | .unary .minus (.literal (.number digits _)) => do .ok (.lit (← numberValue ("-" ++ digits)))
  | .unary op _ => .error (.unsupportedShape (.foreignUnary op.text))
  | .trailing op _ => .error (.unsupportedShape (.foreignUnary op))
  | .isNull negated t => do
    .ok (.binary (if negated then .ne else .eq) (← t.toExpr) (.lit .null))
  | .isTruth b t => do .ok (.binary .eq (← t.toExpr) (.lit (.bool b)))
  | .inList negated t items => do
    let values ← items.mapM Term.itemValue
    let test := (← t.toExpr).isIn (.captured (.ofValue (.list values)))
    .ok (if negated then test.negate else test)
  | .query text => .error (.unsupportedShape (.foreignExpression ("(" ++ text ++ ")")))
  | .foreign text => .error (.unsupportedShape (.foreignExpression text))

/-! ## Texts -/

/-- The clauses of a kind. -/
def hasKind (kind : ClauseKind) (clauses : List Clause) : Bool :=
  clauses.any fun c => c.kind == kind

/-- The condition of the one statement that a text completes. -/
def condition (text : String) : Completed × Nat → Except ShapeFault Term
  | (.selection condition inner outer, 1) =>
    if hasKind .ordering outer then .error (.ordersOrPages text)
    else if hasKind .grouping inner then .error (.groups text)
    else .ok condition
  | (.combination combined outer, 1) =>
    if hasKind .ordering outer then .error (.ordersOrPages text)
    else .error (.notAPredicate combined)
  | (_, count) => .error (.severalStatements count)

/-- The term that a text is, in a dialect. -/
def readTerm (d : Dialect) (text : String) : Except ShapeFault Term :=
  match (lex? d text).bind fun lexemes => (statements d).run lexemes with
  | some (result, _) => condition text result
  | none => .error (.unreadable text)

end SqlCompose.Predicate

namespace SqlCompose

/-- The predicate that a text is in a dialect. -/
def Dialect.readPredicate (d : Dialect) (text : String) : Except QueryError Expr :=
  match Predicate.readTerm d text with
  | .ok t => t.toExpr
  | .error fault => .error (.unsupportedShape fault)

end SqlCompose
