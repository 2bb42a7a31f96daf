import SqlCompose.Predicate.Definition

/-!
# Further statements

Behind a predicate and a semicolon further statements may stand. A text with several statements is
no predicate, so all that matters of them is their number.
-/

namespace SqlCompose.Predicate

open Reader

/-! ## Rows -/

/-- A new value for a column or for several ones. -/
def assignment (lv : Level) : Reader Unit := do
  if ← seesSign "(" then pass (inParentheses (commaList path)) else pass path
  sign "="
  pass lv.any

/-- The condition on rows, if one follows. -/
def optionalCondition (lv : Level) : Reader Unit := pass (behind ["WHERE"] lv.any)

/-- The columns that a change of rows answers with, if it does. -/
def optionalAnswer (d : Dialect) (lv : Level) : Reader Unit :=
  pass (behind ["RETURNING"] (commaList (columnText d lv)))

/-- A change of rows; the word has been read. -/
def updateStatement (d : Dialect) (lv : Level) : Reader Unit := do
  pass (joinedTables d lv)
  keyword "SET"
  pass (commaList (assignment lv))
  if d != .mySql then pass (behind ["FROM"] (joinedTables d lv))
  optionalCondition lv
  optionalAnswer d lv

/-- A removal of rows; the word has been read. -/
def deleteStatement (d : Dialect) (lv : Level) : Reader Unit := do
  unless ← keyword? "FROM" do
    pass (commaList path)
    keyword "FROM"
  pass (tableList d lv)
  pass (behind ["USING"] (tableList d lv))
  optionalCondition lv
  optionalAnswer d lv
  pass (orderingText lv)
  pass (limitText lv)

/-- What an addition does with a row that is there already. -/
def conflictClause (lv : Level) : Reader Unit := do
  if ← keywords? ["ON", "CONFLICT"] then
    if ← keywords? ["ON", "CONSTRAINT"] then pass path else optionalColumnNames
    keyword "DO"
    unless ← keyword? "NOTHING" do
      keywords ["UPDATE", "SET"]
      pass (commaList (assignment lv))
      optionalCondition lv
  else if ← keywords? ["ON", "DUPLICATE", "KEY", "UPDATE"] then
    pass (commaList (assignment lv))

/-- The rows that are added. -/
def addedRows (lv : Level) : Reader Unit := do
  if ← keywords? ["DEFAULT", "VALUES"] then pure ()
  else
    pass (attempt columnNames)
    pass lv.query

/-- An addition of rows; the word has been read. -/
def insertStatement (d : Dialect) (lv : Level) : Reader Unit := do
  if d = .mySql then
    pass (oneOf? ["LOW_PRIORITY", "DELAYED", "HIGH_PRIORITY"])
    passWords ["IGNORE"]
  passWords ["OVERWRITE"]
  passWords ["INTO"]
  passWords ["TABLE"]
  pass path
  if d = .postgres then pass (behind ["AS"] name)
  addedRows lv
  conflictClause lv
  optionalAnswer d lv

/-- A statement that queries with names may precede. -/
def namedQueryStatement (d : Dialect) (lv : Level) : Reader Unit := do
  match ← attempt lv.query with
  | some _ => pure ()
  | none => do
    pass (commonTables d lv)
    match ← oneOf ["INSERT", "UPDATE"] with
    | "INSERT" => insertStatement d lv
    | _ => updateStatement d lv

/-! ## Transactions -/

/-- How a transaction sees others. -/
def transactionMode : Reader (Option (List String)) :=
  firstKeywords? [["ISOLATION", "LEVEL", "READ", "UNCOMMITTED"],
    ["ISOLATION", "LEVEL", "READ", "COMMITTED"], ["ISOLATION", "LEVEL", "REPEATABLE", "READ"],
    ["ISOLATION", "LEVEL", "SERIALIZABLE"], ["READ", "ONLY"], ["READ", "WRITE"]]

/-- How a transaction sees others, several times with or without commas. -/
def transactionModes : Reader Unit := pass (many (do
  let mode ← transactionMode
  if mode.isSome then
    if ← sign? "," then
      unless ← sees ["ISOLATION", "READ"] do refuse
  pure mode))

/-- How a transaction ends; the first word has been read. -/
def transactionEnd : Reader Unit := do
  pass (oneOf? ["TRANSACTION", "WORK"])
  if ← keyword? "AND" then
    passWords ["NO"]
    keyword "CHAIN"

/-- A return to the start of a transaction or to a point of it; the word has been read. -/
def rollbackStatement : Reader Unit := do
  transactionEnd
  if ← keyword? "TO" then
    passWords ["SAVEPOINT"]
    pass name

/-! ## Settings and calls -/

/-- A setting; the word has been read. -/
def setStatement (d : Dialect) (lv : Level) : Reader Unit := do
  let reach ← oneOf? ["SESSION", "LOCAL"]
  if ← keyword? "ROLE" then pass name
  else if ← onlyIf (reach.isNone) (keyword? "TRANSACTION") then transactionModes
  else if ← keywords? ["TIME", "ZONE"] then
    unless ← sign? "=" do passWords ["TO"]
    pass lv.any
  else if ← onlyIf (d == .mySql) (keyword? "NAMES") then
    unless ← keyword? "DEFAULT" do
      pass literalText
      pass (behind ["COLLATE"] literalText)
  else
    pass path
    unless ← sign? "=" do keyword "TO"
    pass (commaList lv.any)

/-- All lexemes up to an equals sign. -/
def wordsBeforeEquals : Reader Unit := fun rest =>
  some ((), rest.dropWhile (· != .sign "="))

/-- A question for a setting; the word has been read. -/
def showStatement (lv : Level) : Reader Unit := do
  match ← oneOf? ["TABLES", "VIEWS", "COLUMNS", "FIELDS", "DATABASES", "SCHEMAS", "FUNCTIONS",
      "COLLATION", "CREATE"] with
  | none => wordsBeforeEquals
  | some "CREATE" => do
    pass (oneOf ["TABLE", "TRIGGER", "FUNCTION", "PROCEDURE", "EVENT", "VIEW"])
    pass path
  | some _ => do
    if (← oneOf? ["FROM", "IN"]).isSome then pass path
    if ← keyword? "LIKE" then pass literalText else optionalCondition lv

/-- The run of a procedure; the word has been read. -/
def executeStatement (lv : Level) : Reader Unit := do
  pass path
  if ← seesSign "(" then
    pass (inParentheses (do if ← seesSign ")" then pure "" else lv.list))
  else
    let ends := (← peek 0).all (· == .sign ";")
    let uses ← sees ["USING"]
    unless ends || uses do pass lv.list
  pass (behind ["USING"] lv.list)

/-- The call of a procedure; the word has been read. -/
def callStatement (d : Dialect) (lv : Level) : Reader Unit := do
  let path ← path
  if ← seesSign "(" then pass (callText d lv path)

/-- The variables that are introduced; the word has been read. -/
def declareStatement (d : Dialect) (lv : Level) : Reader Unit := do
  if hasTruthLiterals d then refuse
  else
    pass (commaList (do
      pass name
      passWords ["AS"]
      pass (typeName d)
      if ← sign? "=" then pass lv.any))

/-! ## Rights -/

/-- A right, and the columns it is for. -/
def right : Reader Unit := do
  pass (oneOf ["SELECT", "INSERT", "UPDATE", "DELETE", "TRUNCATE", "REFERENCES", "TRIGGER",
    "CONNECT", "CREATE", "EXECUTE", "TEMPORARY", "USAGE"])
  optionalColumnNames

/-- Rights on things; the first word has been read. -/
def rightsOnThings : Reader Unit := do
  if ← keyword? "ALL" then passWords ["PRIVILEGES"] else pass (commaList right)
  keyword "ON"
  if ← keyword? "ALL" then
    pass (oneOf ["TABLES", "SEQUENCES"])
    keywords ["IN", "SCHEMA"]
  else pass (oneOf? ["SEQUENCE", "SCHEMA", "TABLE"])
  pass (commaList path)

/-- A grant of rights; the word has been read. -/
def grantStatement : Reader Unit := do
  rightsOnThings
  keyword "TO"
  pass (commaList name)
  passWords ["WITH", "GRANT", "OPTION"]
  pass (behind ["GRANTED", "BY"] name)

/-- A withdrawal of rights; the word has been read. -/
def revokeStatement : Reader Unit := do
  rightsOnThings
  keyword "FROM"
  pass (commaList name)
  pass (behind ["GRANTED", "BY"] name)
  dependents

/-! ## All statements -/

/-- The statement that a word introduces, if it is none that explains another one; the word has
been read. -/
def statementBehind (d : Dialect) (lv : Level) : String → Reader Unit
  | "UPDATE" => updateStatement d lv
  | "DELETE" => deleteStatement d lv
  | "INSERT" => insertStatement d lv
  | "REPLACE" => if d = .mySql then insertStatement d lv else refuse
  | "CREATE" => createStatement d lv
  | "ALTER" => alterStatement d lv
  | "DROP" => dropStatement d
  | "TRUNCATE" => truncateStatement d lv
  | "START" => do
    keyword "TRANSACTION"
    transactionModes
  | "BEGIN" => do
    pass (oneOf? ["TRANSACTION", "WORK"])
    transactionModes
  | "COMMIT" | "END" => transactionEnd
  | "ROLLBACK" => rollbackStatement
  | "SAVEPOINT" => pass name
  | "RELEASE" => do
    passWords ["SAVEPOINT"]
    pass name
  | "SET" => setStatement d lv
  | "SHOW" => showStatement lv
  | "USE" => pass path
  | "EXEC" | "EXECUTE" => executeStatement lv
  | "CALL" => callStatement d lv
  | "DECLARE" => declareStatement d lv
  | "GRANT" => grantStatement
  | "REVOKE" => revokeStatement
  | "DEALLOCATE" => do
    passWords ["PREPARE"]
    pass name
  | "DISCARD" => pass (oneOf ["ALL", "PLANS", "SEQUENCES", "TEMP", "TEMPORARY"])
  | "KILL" => do
    pass (oneOf? ["CONNECTION", "QUERY"])
    pass typeNumber
  | _ => refuse

/-- A statement that explains no other one. -/
def simpleStatement (d : Dialect) (lv : Level) : Reader Unit := do
  let opened ← seesSign "("
  let queried ← sees ["SELECT", "VALUES"]
  if opened || queried then pass lv.query
  else if ← sees ["WITH"] then namedQueryStatement d lv
  else
    match (← next).keyword? with
    | some k => statementBehind d lv k
    | none => refuse

/-- A further statement. -/
def furtherStatement (d : Dialect) (lv : Level) : Reader Unit := do
  if (← oneOf? ["EXPLAIN", "DESCRIBE", "DESC"]).isSome then
    passWords ["ANALYZE"]
    passWords ["VERBOSE"]
    if (← attempt (simpleStatement d lv)).isNone then pass path
  else simpleStatement d lv

end SqlCompose.Predicate
