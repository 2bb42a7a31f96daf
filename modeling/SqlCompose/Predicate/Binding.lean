import SqlCompose.Dialect.Basic
import SqlCompose.Predicate.Term

/-!
# How tightly operators bind

An operator that follows a term takes the term as its operand if it binds more tightly than the
operator in front. `followingBinding` says which kind of operator a list of lexemes starts with.
-/

namespace SqlCompose.Predicate

/-- The kinds of operators that follow a term. -/
inductive Binding where
  /-- Disjunction. -/
  | or
  /-- Conjunction. -/
  | and
  /-- Negation, which stands in front of its operand. -/
  | not
  /-- Operators that only one engine has. -/
  | special
  /-- Tests with `IS`. -/
  | is
  /-- Tests against a pattern. -/
  | like
  /-- Comparisons. -/
  | comparison
  /-- Tests with `IN` and `BETWEEN`. -/
  | membership
  /-- The bar. -/
  | bar
  /-- Shifts. -/
  | shift
  /-- The ampersand. -/
  | ampersand
  /-- Exclusive disjunction. -/
  | xor
  /-- Sums and differences. -/
  | sum
  /-- Products, quotients and remainders. -/
  | product
  /-- The caret. -/
  | caret
  /-- A change of time zone. -/
  | timeZone
  /-- A collation. -/
  | collation
  /-- A bracket. -/
  | bracket
  /-- A cast. -/
  | cast
deriving DecidableEq, Repr

namespace Binding

/-- How tightly an operator binds in the engine with an order of its own. -/
def ownStrength : Binding → Nat
  | .or => 10
  | .and => 20
  | .not => 30
  | .is => 40
  | .comparison => 50
  | .membership | .like => 60
  | .special | .bar | .ampersand | .shift => 70
  | .xor => 75
  | .sum => 80
  | .product => 90
  | .caret => 100
  | .timeZone => 110
  | .collation => 120
  | .bracket => 130
  | .cast => 140

/-- How tightly an operator binds in all other engines; a collation binds nothing. -/
def commonStrength : Binding → Nat
  | .collation => 0
  | .or => 5
  | .and => 10
  | .not => 15
  | .special => 16
  | .is => 17
  | .like => 19
  | .comparison | .membership => 20
  | .bar => 21
  | .shift | .caret => 22
  | .ampersand => 23
  | .xor => 24
  | .sum => 30
  | .product => 40
  | .timeZone => 41
  | .bracket | .cast => 50

/-- How tightly an operator binds in a dialect. -/
def strength (d : Dialect) (b : Binding) : Nat :=
  if d = .postgres then b.ownStrength else b.commonStrength

end Binding

/-! ## The operator that follows -/

/-- The signs of comparisons. -/
def comparisonSigns : List String :=
  ["=", "<", "<=", "<>", "!=", ">", ">=", "==", "~", "~*", "!~", "!~*", "~~", "~~*", "!~~",
    "!~~*", "<=>"]

/-- The signs of operators that only one engine has. -/
def specialSigns : List String :=
  ["->", "->>", "#>", "#>>", "@>", "<@", "#-", "@?", "@@", "?", "?&", "?|"]

/-- The kind of operator a sign stands for. -/
def signBinding (d : Dialect) (s : String) : Option Binding :=
  if comparisonSigns.contains s then some .comparison
  else if specialSigns.contains s then some .special
  else if s == "|" then some .bar
  else if s == "&" then some .ampersand
  else if s == "^" then some .caret
  else if s == "#" || s == "<<" || s == ">>" then some .shift
  else if s == "+" || s == "-" then some .sum
  else if s == "*" || s == "/" || s == "%" then some .product
  else if s == "||" then some (if d = .postgres then .special else .product)
  else if s == "!" || s == "&&" || s == "^@" then
    some (if d = .postgres then .special else .cast)
  else if s == "[" then some .bracket
  else if s == "::" then some .cast
  else none

/-- The words of tests against a pattern. -/
def patternWords : List String := ["LIKE", "ILIKE", "RLIKE", "REGEXP", "SIMILAR"]

/-- The kind of operator a keyword stands for, where these lexemes follow it. -/
def wordBinding (k : String) (rest : List Lexeme) : Option Binding :=
  let follows (ks : List String) : Bool := (rest.head?.bind Lexeme.keyword?).any ks.contains
  if k == "OR" then some .or
  else if k == "AND" then some .and
  else if k == "XOR" then some .xor
  else if k == "AT" then
    if (rest.take 2).filterMap Lexeme.keyword? == ["TIME", "ZONE"] then some .timeZone else none
  else if k == "NOT" then
    if follows ["IN", "BETWEEN"] then some .membership
    else if follows patternWords then some .like
    else none
  else if k == "IS" then some .is
  else if k == "IN" || k == "BETWEEN" || k == "OPERATOR" then some .membership
  else if patternWords.contains k then some .like
  else if k == "DIV" then some .product
  else if k == "COLLATE" then some .collation
  else none

/-- The kind of operator that lexemes start with. -/
def followingBinding (d : Dialect) : List Lexeme → Option Binding
  | .sign s :: _ => signBinding d s
  | .custom _ :: _ => some .special
  | l :: rest => l.keyword?.bind fun k => wordBinding k rest
  | [] => none

/-- How tightly the operator that lexemes start with binds; zero if there is none. -/
def followingStrength (d : Dialect) (rest : List Lexeme) : Nat :=
  match followingBinding d rest with
  | some b => b.strength d
  | none => 0

/-! ## Operators with two operands -/

/-- The signs of operators with two operands that only one engine has. -/
def ownInfixSigns : List String := ["<<", ">>", "#", "&&", "^@"]

/-- The signs of operators that stand for no operator of query expressions. -/
def foreignSigns : List String :=
  ["<=>", "+", "-", "*", "%", "||", "|", "^", "&", "/", "~", "~*", "!~", "!~*", "~~", "~~*", "!~~",
    "!~~*", "->", "->>", "#>", "#>>", "@>", "<@", "#-", "@?", "@@", "?", "?&", "?|"]

/-- The operator with two operands that a lexeme stands for. -/
def infixOf? (d : Dialect) : Lexeme → Option Infix
  | .sign s =>
    if s == "=" || s == "==" then some (.known .eq)
    else if s == "<>" || s == "!=" then some (.known .ne)
    else if s == "<" then some (.known .lt)
    else if s == "<=" then some (.known .le)
    else if s == ">" then some (.known .gt)
    else if s == ">=" then some (.known .ge)
    else if foreignSigns.contains s then some (.foreign s)
    else if d = .postgres ∧ ownInfixSigns.contains s then some (.foreign s)
    else none
  | .custom s => some (.foreign s)
  | l =>
    if l.isKeyword "AND" then some (.known .and)
    else if l.isKeyword "OR" then some (.known .or)
    else if l.isKeyword "XOR" then some (.foreign "XOR")
    else none

/-- Whether an operator may compare with any or all values of a list. -/
def Infix.comparesEach : Infix → Bool
  | .known op => !op.isLogical
  | .foreign s => ["~", "~*", "!~", "!~*", "~~", "~~*", "!~~", "!~~*"].contains s

end SqlCompose.Predicate
