import SqlCompose.Predicate.Call

/-!
# Operands

An operand is what stands between operators: a name, a literal, a term in parentheses, an operator
in front of its operand, or one of the forms that a word introduces. A word whose form does not
follow is read as a name, except where the word is reserved.
-/

namespace SqlCompose.Predicate

open Reader

/-- An expression without a counterpart. -/
def foreign (p : Reader String) : Reader Term := Term.foreign <$> p

/-! ## Forms that words introduce -/

/-- A text literal behind the name of a type. -/
def typedText (d : Dialect) (lv : Level) : Reader String := do
  let t ← typeName d
  match t.origin with
  | .language => do
    let content ← literalText
    pure (t.text ++ " " ++ TextForm.plain.write content)
  | .interval => spanText d lv
  | .other => refuse

/-- A condition and its result. -/
def branchText (lv : Level) : Reader (Option String) := do
  if ← keyword? "WHEN" then
    let condition ← lv.text
    keyword "THEN"
    pure (some (" WHEN " ++ condition ++ " THEN " ++ (← lv.text)))
  else pure none

/-- A choice between branches; the word has been read. -/
def caseText (lv : Level) : Reader String := do
  let subject ← if ← sees ["WHEN"] then pure "" else (" " ++ ·) <$> lv.text
  match ← many (branchText lv) with
  | [] => refuse
  | branches =>
    let other ← behind ["ELSE"] lv.text
    keyword "END"
    pure ("CASE" ++ subject ++ String.join branches ++ (other.elim "" (" ELSE " ++ ·)) ++ " END")

/-- The form that a cast gives to a text, and the time zone it is taken in. -/
def castFormat (d : Dialect) : Reader String := do
  let form ← literal d
  match ← behind ["AT", "TIME", "ZONE"] (literal d) with
  | some zone => pure (form.text ++ " AT TIME ZONE " ++ zone.text)
  | none => pure form.text

/-- A cast; the word has been read. -/
def castText (d : Dialect) (lv : Level) (word : String) : Reader String := inParentheses do
  let t ← lv.text
  keyword "AS"
  let type ← typeName d
  let form ← behind ["FORMAT"] (castFormat d)
  pure (word ++ "(" ++ t ++ " AS " ++ type.text ++ (form.elim "" (" FORMAT " ++ ·)) ++ ")")

/-- A conversion whose type comes first; the word has been read. -/
def convertToText (d : Dialect) (lv : Level) (word : String) : Reader String := inParentheses do
  let t ← typeName d
  sign ","
  pure (word ++ "(" ++ t.text ++ ", " ++ (← lv.list) ++ ")")

/-- A conversion whose value comes first; the word has been read. -/
def convertText (d : Dialect) (lv : Level) : Reader String := inParentheses do
  let t ← lv.text
  if ← keyword? "USING" then pure ("CONVERT(" ++ t ++ " USING " ++ (← pathText) ++ ")")
  else
    sign ","
    let type ← typeName d
    let charset ← behind ["CHARACTER", "SET"] pathText
    pure ("CONVERT(" ++ t ++ ", " ++ type.text ++
      (charset.elim "" (" CHARACTER SET " ++ ·)) ++ ")")

/-- A test whether a query has rows; the word has been read. -/
def existsText (lv : Level) (negated : Bool) : Reader String := do
  let q ← inParentheses lv.query
  pure (negation negated ++ "EXISTS (" ++ q ++ ")")

/-- A part of a date; the word has been read. -/
def extractText (d : Dialect) (lv : Level) : Reader String := inParentheses do
  let part ← datePart d
  keyword "FROM"
  pure ("EXTRACT(" ++ part ++ " FROM " ++ (← lv.text) ++ ")")

/-- A rounding; the word has been read. -/
def roundingText (d : Dialect) (lv : Level) (word : String) : Reader String := inParentheses do
  let t ← lv.text
  if ← keyword? "TO" then pure (word ++ "(" ++ t ++ " TO " ++ (← datePart d) ++ ")")
  else if ← sign? "," then
    match ← literal d with
    | .number digits long =>
      pure (word ++ "(" ++ t ++ ", " ++ Lexeme.writeNumber digits long ++ ")")
    | _ => refuse
  else pure (word ++ "(" ++ t ++ ")")

/-- The position of a text in another one; the word has been read. -/
def positionText (d : Dialect) (lv : Level) (word : Name) : Reader String := do
  let text ← attempt (inParentheses (do
    let t ← Term.text <$> lv.term (Binding.membership.strength d)
    keyword "IN"
    pure ("POSITION(" ++ t ++ " IN " ++ (← lv.text) ++ ")")))
  match text with
  | some text => pure text
  | none => callText d lv [word]

/-- A part of a text; the word has been read. -/
def substringText (lv : Level) : Reader String := inParentheses do
  let t ← lv.text
  let comma ← sign? ","
  let start ← if comma then some <$> lv.text else behind ["FROM"] lv.text
  let length ← do
    match ← behind ["FOR"] lv.text with
    | some n => pure (some n)
    | none => if ← sign? "," then some <$> lv.text else pure none
  let startMark := if comma then ", " else " FROM "
  let lengthMark := if comma then ", " else " FOR "
  pure ("SUBSTRING(" ++ t ++ (start.elim "" (startMark ++ ·)) ++
    (length.elim "" (lengthMark ++ ·)) ++ ")")

/-- A text with a part of it replaced; the word has been read. -/
def overlayText (lv : Level) : Reader String := inParentheses do
  let t ← lv.text
  keyword "PLACING"
  let new ← lv.text
  keyword "FROM"
  let start ← lv.text
  let length ← behind ["FOR"] lv.text
  pure ("OVERLAY(" ++ t ++ " PLACING " ++ new ++ " FROM " ++ start ++
    (length.elim "" (" FOR " ++ ·)) ++ ")")

/-- A text without characters at its ends; the word has been read. A comma behind the text is
passed over. -/
def trimText (lv : Level) : Reader String := inParentheses do
  let place ← oneOf? ["BOTH", "LEADING", "TRAILING"]
  let t ← lv.text
  let rest ← behind ["FROM"] lv.text
  let _ ← onlyIf rest.isNone (sign? ",")
  pure ("TRIM(" ++ (place.elim "" (· ++ " ")) ++ t ++ (rest.elim "" (" FROM " ++ ·)) ++ ")")

/-- A call without parentheses, or with them; the word has been read. -/
def clockText (d : Dialect) (lv : Level) (word : Name) : Reader String := do
  if ← seesSign "(" then pure (word.write ++ (← argumentsText d lv)) else pure word.write

/-- The terms of an array in brackets; the word before it is given. -/
def arrayText (lv : Level) (word : String) : Reader String := do
  sign "["
  let items ← if ← seesSign "]" then pure "" else lv.list
  sign "]"
  pure (word ++ "[" ++ items ++ "]")

/-- An array with the rows of a query; the word has been read. -/
def queryArrayText (lv : Level) (word : Name) : Reader String := do
  pure (word.write ++ "(" ++ (← inParentheses lv.query) ++ ")")

/-- How a search of words is to be done. -/
def searchMode : Reader String := do
  if ← keywords? ["IN", "NATURAL", "LANGUAGE", "MODE", "WITH", "QUERY", "EXPANSION"] then
    pure " IN NATURAL LANGUAGE MODE WITH QUERY EXPANSION"
  else if ← keywords? ["IN", "NATURAL", "LANGUAGE", "MODE"] then
    pure " IN NATURAL LANGUAGE MODE"
  else if ← keywords? ["IN", "BOOLEAN", "MODE"] then pure " IN BOOLEAN MODE"
  else if ← keywords? ["WITH", "QUERY", "EXPANSION"] then pure " WITH QUERY EXPANSION"
  else pure ""

/-- A search of words in columns; the word has been read. -/
def matchText (d : Dialect) : Reader String := do
  let columns ← inParentheses namesText
  keyword "AGAINST"
  let what ← inParentheses (do
    let v ← literal d
    pure (v.text ++ (← searchMode)))
  pure ("MATCH (" ++ columns ++ ") AGAINST (" ++ what ++ ")")

/-- A negation; the word has been read. -/
def negated (d : Dialect) (lv : Level) : Reader Term := do
  if ← keyword? "EXISTS" then foreign (existsText lv true)
  else Term.unary .not <$> lv.term (Binding.not.strength d)

/-- What a term is in the row above; the word has been read. -/
def priorText (d : Dialect) (lv : Level) : Reader String := do
  pure ("PRIOR " ++ (← lv.term (Binding.sum.strength d)).text)

/-- The words of the user and the catalogue, which are calls in one engine. -/
def sessionWords : List String := ["CURRENT_CATALOG", "CURRENT_USER", "SESSION_USER", "USER"]

/-- The words of the clock. -/
def clockWords : List String :=
  ["CURRENT_TIMESTAMP", "CURRENT_TIME", "CURRENT_DATE", "LOCALTIME", "LOCALTIMESTAMP"]

/-- The form that a keyword introduces, where these lexemes follow it. -/
def wordForm? (d : Dialect) (lv : Level) (word : Name) (k : String) (rest : List Lexeme) :
    Option (Reader Term) :=
  match literalWord? d k with
  | some v => some (pure (.literal v))
  | none =>
    if k == "NOT" then some (negated d lv)
    else if sessionWords.contains k && d = .postgres then some (pure (.foreign word.write))
    else if clockWords.contains k then some (foreign (clockText d lv word))
    else if k == "CASE" then some (foreign (caseText lv))
    else if k == "CAST" || k == "TRY_CAST" || k == "SAFE_CAST" then
      some (foreign (castText d lv k))
    else if k == "CONVERT" then
      some (foreign (if hasTruthLiterals d then convertText d lv else convertToText d lv k))
    else if k == "TRY_CONVERT" && !hasTruthLiterals d then some (foreign (convertToText d lv k))
    else if k == "EXISTS" then some (foreign (existsText lv false))
    else if k == "EXTRACT" then some (foreign (extractText d lv))
    else if k == "CEIL" || k == "FLOOR" then some (foreign (roundingText d lv k))
    else if k == "POSITION" && rest.head? == some (.sign "(") then
      some (foreign (positionText d lv word))
    else if k == "SUBSTRING" then some (foreign (substringText lv))
    else if k == "OVERLAY" then some (foreign (overlayText lv))
    else if k == "TRIM" then some (foreign (trimText lv))
    else if k == "INTERVAL" then some (foreign (spanText d lv))
    else if k == "ARRAY" && rest.head? == some (.sign "[") then
      some (foreign (arrayText lv "ARRAY"))
    else if k == "ARRAY" && rest.head? == some (.sign "(") then
      some (foreign (queryArrayText lv word))
    else if k == "MATCH" && d = .mySql then some (foreign (matchText d))
    else if k == "PRIOR" && lv.namesPrior then some (foreign (priorText d lv))
    else none

/-- The words that are never read as names where their form does not follow. -/
def isReserved (d : Dialect) (k : String) : Bool :=
  ["NOT", "EXISTS", "STRUCT", "TRIM"].contains k || k == "INTERVAL" && d != .postgres

/-! ## Names -/

/-- What a name stands for: a column, a call, or a text of its character set; the first name has
been read. -/
def named (d : Dialect) (lv : Level) (word : Name) : Reader Term := do
  match ← peek 0 with
  | some (.sign "(") | some (.sign ".") =>
    let more ← many (do
      if (← seesSign ".") && (← peek 1) != some (.sign "*") then
        sign "."
        some <$> pathPart
      else pure none)
    let path := word :: more
    if ← sign? "." then
      sign "*"
      if d = .postgres then pure (.foreign (writePath path ++ ".*")) else refuse
    else if ← seesSign "(" then
      let outer := (← peek 1) == some (.sign "+") && (← peek 2) == some (.sign ")")
      if outer && !hasTruthLiterals d then
        sign "("
        sign "+"
        sign ")"
        pure (.foreign (writePath path ++ " (+)"))
      else foreign (callText d lv path)
    else pure (.column path)
  | some (.quoted form content) =>
    if "_".isPrefixOf word.text && [.plain, .quotation, .hexadecimal].contains form then
      let _ ← next
      pure (.foreign (word.text ++ " " ++ form.write content))
    else pure (.column [word])
  | _ => pure (.column [word])

/-! ## Operands -/

/-- A call behind a point, if there is a point. -/
def methodText (d : Dialect) (lv : Level) : Reader (Option String) := do
  if ← sign? "." then
    match ← next with
    | .word n => do pure (some ("." ++ (← callText d lv [n])))
    | _ => refuse
  else pure none

/-- A term with the calls behind it, in the engine that has them; what follows is read as calls as
a whole or not at all. -/
def withMethods (d : Dialect) (lv : Level) (t : Term) : Reader Term := do
  if hasTruthLiterals d then pure t
  else
    match ← attempt (many (methodText d lv)) with
    | none | some [] => pure t
    | some calls => pure (.foreign (t.text ++ String.join calls))

/-- A term with the calls and the collation behind it. -/
def completed (d : Dialect) (lv : Level) (t : Term) : Reader Term := do
  let t ← withMethods d lv t
  if ← keyword? "COLLATE" then foreign ((t.text ++ " COLLATE " ++ ·) <$> pathText) else pure t

/-- An operand that a word starts. -/
def wordOperand (d : Dialect) (lv : Level) (word : Name) (k : String) : Reader Term := fun rest =>
  match wordForm? d lv word k rest with
  | none => (do completed d lv (← named d lv word)) rest
  | some form =>
    match form rest with
    | some (t, rest) => completed d lv t rest
    | none => if isReserved d k then none else named d lv word rest

/-- What stands in parentheses: a query, a term or several terms. The opening one has been
read. -/
def parenthesized (d : Dialect) (lv : Level) : Reader Term := do
  let t ←
    if ← seesQuery then Term.query <$> lv.query
    else do
      match ← commaList lv.any with
      | [t] => pure (.group t)
      | ts => pure (.foreign ("(" ++ listText (Term.texts ts) ++ ")"))
  sign ")"
  let t ← withMethods d lv t
  if ← sign? "." then
    match ← next with
    | .word n => pure (.foreign (t.text ++ "." ++ n.write))
    | _ => refuse
  else pure t

/-- The signs that stand in front of an operand in one engine only. -/
def ownPrefixSigns : List String := ["!!", "|/", "||/", "@", "~"]

/-- A call in braces; the opening one has been read. -/
def bracedCall (d : Dialect) (lv : Level) : Reader String := do
  keyword "FN"
  let t ← callText d lv (← path)
  sign "\x7d"
  pure ("\x7bfn " ++ t ++ "\x7d")

/-- An operand that a sign starts. -/
def signOperand (d : Dialect) (lv : Level) (s : String) : Reader Term := do
  if s == "(" then parenthesized d lv
  else if s == "-" then Term.unary .minus <$> lv.term (Binding.product.strength d)
  else if s == "+" then Term.unary (.foreign s) <$> lv.term (Binding.product.strength d)
  else if d = .postgres ∧ ownPrefixSigns.contains s then
    Term.unary (.foreign s) <$> lv.term (Binding.sum.strength d)
  else if s == ":" || s == "@" then Term.literal <$> signedPlaceholder s
  else if s == "\x7b" then foreign (bracedCall d lv)
  else refuse

/-- An operand that starts with a lexeme. -/
def operandFrom (d : Dialect) (lv : Level) (l : Lexeme) : Reader Term :=
  match l with
  | .word word => wordOperand d lv word (l.keyword?.getD "")
  | .sign s => do completed d lv (← signOperand d lv s)
  | l =>
    match literalOf? l with
    | some v => completed d lv (.literal v)
    | none => refuse

/-- An operand. -/
def operand (d : Dialect) (lv : Level) : Reader Term := do
  match ← attempt (typedText d lv) with
  | some text => pure (.foreign text)
  | none =>
    if ← seesSign "[" then completed d lv (.foreign (← arrayText lv ""))
    else operandFrom d lv (← next)

end SqlCompose.Predicate
