import SqlCompose.Predicate.Operand

/-!
# Operations

An operation is what follows a term and takes it as its first operand: an operator and its second
operand, a test, a cast or a subscript. `climb` reads an operand and then operations for as long as
they bind tightly enough.
-/

namespace SqlCompose.Predicate

open Reader

/-- What `IS` tests a term for; the word has been read. -/
def isTest (lv : Level) (t : Term) : Reader Term := do
  let ends (s : String) : Reader Term := pure (.foreign (t.text ++ " IS " ++ s))
  if ← keyword? "NULL" then pure (.isNull false t)
  else if ← keywords? ["NOT", "NULL"] then pure (.isNull true t)
  else if ← keyword? "TRUE" then pure (.isTruth true t)
  else if ← keywords? ["NOT", "TRUE"] then ends "NOT TRUE"
  else if ← keyword? "FALSE" then pure (.isTruth false t)
  else if ← keywords? ["NOT", "FALSE"] then ends "NOT FALSE"
  else if ← keyword? "UNKNOWN" then ends "UNKNOWN"
  else if ← keywords? ["NOT", "UNKNOWN"] then ends "NOT UNKNOWN"
  else if ← keywords? ["DISTINCT", "FROM"] then ends ("DISTINCT FROM " ++ (← lv.text))
  else if ← keywords? ["NOT", "DISTINCT", "FROM"] then
    ends ("NOT DISTINCT FROM " ++ (← lv.text))
  else refuse

/-- What `IN` tests a term for; the word has been read. -/
def inTest (lv : Level) (t : Term) (negated : Bool) : Reader Term := do
  let start := t.text ++ " " ++ negation negated
  if ← keyword? "UNNEST" then
    foreign ((start ++ "IN UNNEST(" ++ · ++ ")") <$> inParentheses lv.text)
  else inParentheses do
    if ← seesQuery then foreign ((start ++ "IN (" ++ · ++ ")") <$> lv.query)
    else Term.inList negated t <$> commaList lv.any

/-- The bounds that a term is tested against; the word has been read. -/
def betweenTest (d : Dialect) (lv : Level) (t : Term) (negated : Bool) : Reader Term := do
  let bound := Term.text <$> lv.term (Binding.membership.strength d)
  let low ← bound
  keyword "AND"
  let high ← bound
  pure (.foreign (t.text ++ " " ++ negation negated ++ "BETWEEN " ++ low ++ " AND " ++ high))

/-- The pattern that a term is tested against and its escape character; the words have been
read. -/
def patternTest (d : Dialect) (lv : Level) (t : Term) (negated : Bool) (word : String) :
    Reader Term := do
  let any ← onlyIf (word != "SIMILAR TO") (keyword? "ANY")
  let word := if any then word ++ " ANY" else word
  let pattern ← lv.term (Binding.like.strength d)
  let escape ← behind ["ESCAPE"] literalText
  pure (.foreign (t.text ++ " " ++ negation negated ++ word ++ " " ++ pattern.text ++
    (escape.elim "" (" ESCAPE '" ++ · ++ "'"))))

/-- A test that may be negated. -/
def test (d : Dialect) (lv : Level) (t : Term) : Reader Term := do
  let negated ← keyword? "NOT"
  let regexp ← keyword? "REGEXP"
  let rlike ← keyword? "RLIKE"
  if regexp || rlike then
    let word := if regexp then "REGEXP" else "RLIKE"
    let pattern ← lv.term (Binding.like.strength d)
    pure (.foreign (t.text ++ " " ++ negation negated ++ word ++ " " ++ pattern.text))
  else if ← keyword? "IN" then inTest lv t negated
  else if ← keyword? "BETWEEN" then betweenTest d lv t negated
  else if ← keyword? "LIKE" then patternTest d lv t negated "LIKE"
  else if ← keyword? "ILIKE" then patternTest d lv t negated "ILIKE"
  else if ← keywords? ["SIMILAR", "TO"] then patternTest d lv t negated "SIMILAR TO"
  else refuse

/-- What a term is compared with each value of: the rows of a query, which keep their parentheses,
or a term in parentheses. -/
def eachOperand (lv : Level) (strength : Nat) : Reader String := do
  let opened ← seesSign "("
  if ← onlyIf opened (seesAt 1 ["SELECT", "WITH"]) then
    match ← lv.term strength with
    | .query text => pure text
    | t => pure t.text
  else Term.text <$> inParentheses (lv.term strength)

/-- The second operand of an operator: a term, or any or all values of a list. -/
def rightOperand (lv : Level) (strength : Nat) (op : Infix) (t : Term) : Reader Term := do
  match ← oneOf? ["ANY", "ALL", "SOME"] with
  | some word => do
    let list ← eachOperand lv strength
    if op.comparesEach then
      pure (.foreign (t.text ++ " " ++ op.text ++ " " ++ word ++ "(" ++ list ++ ")"))
    else refuse
  | none => Term.binary op t <$> lv.term strength

/-- The name of an operator given in parentheses; the word has been read. -/
def operatorName : Reader Infix := inParentheses do
  let first ← next
  let more ← many (do if ← sign? "." then some <$> next else pure none)
  pure (.foreign ("OPERATOR(" ++ ".".intercalate ((first :: more).map Lexeme.text) ++ ")"))

/-- A term in its normal form, or nothing if the bracket closes. -/
def optionalBound (lv : Level) : Reader String := do
  if ← seesSign "]" then pure "" else lv.text

/-- What follows the colon of a subscript: the upper bound and a further colon with the steps. -/
def sliceEnd (lv : Level) : Reader String := do
  if ← seesSign "]" then pure ""
  else
    let high ← lv.text
    if ← sign? ":" then
      let steps ← optionalBound lv
      pure (high ++ (if steps.isEmpty then "" else ":" ++ steps))
    else pure high

/-- A subscript; the bracket has been read. One engine has ranges, too. -/
def subscript (d : Dialect) (lv : Level) (t : Term) : Reader Term := do
  let ranges := d == .postgres
  let text ←
    if ← onlyIf ranges (sign? ":") then pure (":" ++ (← sliceEnd lv))
    else do
      let low ← lv.text
      if ← onlyIf ranges (sign? ":") then pure (low ++ ":" ++ (← sliceEnd lv)) else pure low
  sign "]"
  pure (.foreign (t.text ++ "[" ++ text ++ "]"))

/-- An operation on a term that a sign or a word introduces, which binds with a strength. -/
def operationFrom (d : Dialect) (lv : Level) (strength : Nat) (t : Term) (l : Lexeme) :
    Reader Term := do
  match infixOf? d l with
  | some op => rightOperand lv strength op t
  | none =>
    match l with
    | .sign s =>
      if s == "::" then foreign ((t.text ++ "::" ++ ·.text) <$> typeName d)
      else if s == "!" && d = .postgres then pure (.trailing "!" t)
      else if s == "[" then subscript d lv t
      else refuse
    | l =>
      if l.isKeyword "IS" then isTest lv t
      else if l.isKeyword "AT" then do
        keywords ["TIME", "ZONE"]
        foreign ((t.text ++ " AT TIME ZONE " ++ ·.text) <$> lv.term strength)
      else if l.isKeyword "OPERATOR" && d = .postgres then do
        let op ← operatorName
        rightOperand lv strength op t
      else if l.isKeyword "DIV" && d = .mySql then Term.binary (.foreign "DIV") t <$> lv.any
      else refuse

/-- An operation on a term, which binds with a strength. -/
def operation (d : Dialect) (lv : Level) (strength : Nat) (t : Term) : Reader Term := do
  if ← sees ["NOT", "IN", "BETWEEN", "LIKE", "ILIKE", "SIMILAR", "REGEXP", "RLIKE"] then
    test d lv t
  else operationFrom d lv strength t (← next)

/-- A term with the operations that follow it and bind more tightly than a strength; the fuel
bounds the operations. -/
def extend (d : Dialect) (lv : Level) (least : Nat) : Nat → Term → Reader Term
  | 0, t => pure t
  | fuel + 1, t => fun rest =>
    let strength := followingStrength d rest
    if strength ≤ least then some (t, rest)
    else (do extend d lv least fuel (← operation d lv strength t)) rest

/-- A term whose operations bind more tightly than a strength. -/
def climb (d : Dialect) (lv : Level) (least : Nat) : Reader Term := do
  let t ← operand d lv
  fun rest => extend d lv least rest.length t rest

end SqlCompose.Predicate
