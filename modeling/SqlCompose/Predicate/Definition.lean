import SqlCompose.Predicate.Query

/-!
# Statements that define

Statements that make, change and remove tables and other named things. Behind a predicate they only
count, so their readers keep nothing.
-/

namespace SqlCompose.Predicate

open Reader

/-- Reads what a reader reads, and keeps nothing of it. -/
def pass {α : Type} (p : Reader α) : Reader Unit := do
  let _ ← p
  pure ()

/-- Keywords that may stand or not. -/
def passWords (ks : List String) : Reader Unit := pass (keywords? ks)

/-- One of several runs of keywords. -/
def firstKeywords (ks : List (List String)) : Reader (List String) := do
  match ← firstKeywords? ks with
  | some words => pure words
  | none => refuse

/-- Names of columns in parentheses. -/
def columnNames : Reader Unit := pass (inParentheses (commaList name))

/-- Names of columns in parentheses, or nothing. -/
def optionalColumnNames : Reader Unit := do if ← seesSign "(" then columnNames else pure ()

/-- What removes or empties a thing may do to those that depend on it. -/
def dependents : Reader Unit := pass (oneOf? ["CASCADE", "RESTRICT"])

/-! ## Columns and constraints -/

/-- What happens to the rows that refer to a row. -/
def referenceActions : Reader Unit :=
  pass (many (do
    match ← firstKeywords? [["ON", "DELETE"], ["ON", "UPDATE"]] with
    | some _ =>
      some <$> firstKeywords
        [["RESTRICT"], ["CASCADE"], ["SET", "NULL"], ["NO", "ACTION"], ["SET", "DEFAULT"]]
    | none => pure none))

/-- When a constraint is checked. -/
def checkTimes : Reader Unit :=
  pass (many (firstKeywords?
    [["DEFERRABLE"], ["NOT", "DEFERRABLE"], ["INITIALLY", "DEFERRED"], ["INITIALLY", "IMMEDIATE"],
      ["ENFORCED"], ["NOT", "ENFORCED"]]))

/-- The table that a constraint refers to, and its columns; the word has been read. -/
def referredTable (columns : Reader Unit) : Reader Unit := do
  pass path
  columns
  referenceActions
  checkTimes

/-- A value that is computed; the words have been read. -/
def computedValue (lv : Level) : Reader Unit := do
  pass (inParentheses lv.any)
  pass (oneOf? ["STORED", "VIRTUAL", "PERSISTED"])

/-- The words of a column's options that stand alone. -/
def plainOptions (d : Dialect) : List (List String) :=
  [["NOT", "NULL"], ["NULL"]] ++ (if d = .mySql then [["AUTO_INCREMENT"]] else []) ++
    (if d = .postgres then [["GENERATED", "ALWAYS", "AS", "IDENTITY"],
      ["GENERATED", "BY", "DEFAULT", "AS", "IDENTITY"]] else [])

/-- An option of a column, if one follows. -/
def columnOption (d : Dialect) (lv : Level) : Reader (Option Unit) := do
  if (← firstKeywords? (plainOptions d)).isSome then pure (some ())
  else if ← keyword? "DEFAULT" then some <$> pass lv.any
  else if ← keyword? "COMMENT" then some <$> pass literalText
  else if ← keywords? ["CHARACTER", "SET"] then some <$> pass path
  else if ← keywords? ["PRIMARY", "KEY"] then some <$> checkTimes
  else if ← keyword? "UNIQUE" then some <$> checkTimes
  else if ← keyword? "REFERENCES" then some <$> referredTable optionalColumnNames
  else if ← keyword? "CHECK" then some <$> pass (inParentheses lv.any)
  else if ← keywords? ["GENERATED", "ALWAYS", "AS"] then some <$> computedValue lv
  else if ← onlyIf (d == .mySql) (keywords? ["ON", "UPDATE"]) then some <$> pass lv.any
  else if ← onlyIf (!hasTruthLiterals d) (keyword? "IDENTITY") then
    some <$> pass (inOptionalParentheses lv.list)
  else pure none

/-- An option of a column behind a name of its own. -/
def namedOption (d : Dialect) (lv : Level) : Reader (Option Unit) := do
  if ← keyword? "CONSTRAINT" then
    pass name
    match ← columnOption d lv with
    | some _ => pure (some ())
    | none => refuse
  else if ← onlyIf (d == .mySql) (keyword? "COLLATE") then some <$> pass path
  else columnOption d lv

/-- A column of a table. -/
def columnDefinition (d : Dialect) (lv : Level) : Reader Unit := do
  pass name
  pass (typeName d)
  pass (behind ["COLLATE"] path)
  pass (many (namedOption d lv))

/-- A constraint of a table, if one follows. -/
def tableConstraint (lv : Level) : Reader (Option Unit) := do
  let named ← behind ["CONSTRAINT"] name
  match ← firstKeywords? [["UNIQUE"], ["PRIMARY", "KEY"], ["FOREIGN", "KEY"], ["CHECK"]] with
  | some ["FOREIGN", "KEY"] => do
    columnNames
    keyword "REFERENCES"
    some <$> referredTable columnNames
  | some ["CHECK"] => some <$> pass (inParentheses lv.any)
  | some ["UNIQUE"] => do
    pass (oneOf? ["KEY", "INDEX"])
    unless ← seesSign "(" do pass name
    columnNames
    some <$> checkTimes
  | some _ => do
    columnNames
    some <$> checkTimes
  | none => if named.isSome then refuse else pure none

/-- A column or a constraint of a table. -/
def tableMember (d : Dialect) (lv : Level) : Reader Unit := do
  match ← tableConstraint lv with
  | some _ => pure ()
  | none => columnDefinition d lv

/-! ## Making -/

/-- A table; the word has been read. -/
def newTable (d : Dialect) (lv : Level) : Reader Unit := do
  passWords ["IF", "NOT", "EXISTS"]
  pass path
  if ← seesSign "(" then
    pass (inParentheses (do
      if ← seesSign ")" then pure [] else commaList (tableMember d lv)))
  pass (behind ["ENGINE"] (do
    pass (sign? "=")
    name))
  let query ← behind ["AS"] lv.query
  let selection ← sees ["SELECT"]
  if d = .mySql ∧ query.isNone ∧ selection then pass lv.query

/-- A view; the word has been read. -/
def newView (lv : Level) : Reader Unit := do
  passWords ["IF", "NOT", "EXISTS"]
  pass path
  optionalColumnNames
  keyword "AS"
  pass lv.query

/-- An index; the word has been read. -/
def newIndex (lv : Level) : Reader Unit := do
  passWords ["CONCURRENTLY"]
  passWords ["IF", "NOT", "EXISTS"]
  unless ← sees ["ON"] do pass path
  keyword "ON"
  pass path
  pass (behind ["USING"] name)
  pass (inParentheses (commaList (sortingText lv)))
  pass (behind ["WHERE"] lv.any)

/-- What makes a thing; the word has been read. -/
def createStatement (d : Dialect) (lv : Level) : Reader Unit := do
  passWords ["OR", "REPLACE"]
  pass (oneOf? ["LOCAL", "GLOBAL"])
  pass (oneOf? ["TEMP", "TEMPORARY"])
  let unique ← keyword? "UNIQUE"
  match ← oneOf ["TABLE", "VIEW", "INDEX", "SCHEMA", "DATABASE", "ROLE", "SEQUENCE",
      "EXTENSION"] with
  | "INDEX" => newIndex lv
  | word =>
    if unique then refuse
    else if word == "TABLE" then newTable d lv
    else if word == "VIEW" then newView lv
    else
      passWords ["IF", "NOT", "EXISTS"]
      pass path

/-! ## Changing -/

/-- A column that is changed; the words before it have been read. -/
def columnChange (d : Dialect) (lv : Level) : Reader Unit := do
  pass name
  match ← firstKeywords [["SET", "NOT", "NULL"], ["DROP", "NOT", "NULL"], ["SET", "DEFAULT"],
      ["DROP", "DEFAULT"], ["SET", "DATA", "TYPE"], ["TYPE"]] with
  | ["SET", "DEFAULT"] => pass lv.any
  | ["SET", "DATA", "TYPE"] | ["TYPE"] => do
    pass (typeName d)
    pass (behind ["USING"] lv.any)
  | _ => pure ()

/-- A new name for a table or a part of it; the word has been read. -/
def newName : Reader Unit := do
  unless ← keyword? "TO" do
    pass (oneOf? ["CONSTRAINT", "COLUMN"])
    pass name
    keyword "TO"
  pass path

/-- A part of a table that is removed; the word has been read. -/
def partRemoval : Reader Unit := do
  if ← keywords? ["PRIMARY", "KEY"] then pure ()
  else
    pass (oneOf? ["CONSTRAINT", "COLUMN"])
    passWords ["IF", "EXISTS"]
    pass name
    dependents

/-- A change of a table. -/
def tableChange (d : Dialect) (lv : Level) : Reader Unit := do
  match ← oneOf ["ADD", "DROP", "RENAME", "ALTER"] with
  | "ADD" => do
    match ← tableConstraint lv with
    | some _ => pure ()
    | none => do
      passWords ["COLUMN"]
      passWords ["IF", "NOT", "EXISTS"]
      columnDefinition d lv
  | "DROP" => partRemoval
  | "RENAME" => newName
  | _ => do
    passWords ["COLUMN"]
    columnChange d lv

/-- What changes a thing; the word has been read. -/
def alterStatement (d : Dialect) (lv : Level) : Reader Unit := do
  keyword "TABLE"
  passWords ["IF", "EXISTS"]
  passWords ["ONLY"]
  pass path
  pass (commaList (tableChange d lv))

/-! ## Removing -/

/-- What removes things; the word has been read. -/
def dropStatement (d : Dialect) : Reader Unit := do
  let _ ← onlyIf (d == .mySql) (keyword? "TEMPORARY")
  match ← oneOf ["TABLE", "VIEW", "INDEX", "ROLE", "SCHEMA", "DATABASE", "SEQUENCE", "STAGE",
      "TYPE", "FUNCTION", "PROCEDURE"] with
  | "FUNCTION" | "PROCEDURE" => do
    passWords ["IF", "EXISTS"]
    pass (commaList (do
      pass path
      if ← seesSign "(" then
        pass (inParentheses (do if ← seesSign ")" then pure [] else commaList (typeName d)))))
    dependents
  | "ROLE" => do
    passWords ["IF", "EXISTS"]
    pass (commaList path)
  | _ => do
    passWords ["IF", "EXISTS"]
    pass (commaList path)
    dependents
    passWords ["PURGE"]

/-- What empties tables; the word has been read. -/
def truncateStatement (d : Dialect) (lv : Level) : Reader Unit := do
  passWords ["TABLE"]
  passWords ["ONLY"]
  pass (commaList path)
  pass (behind ["PARTITION"] (inParentheses lv.list))
  if d = .postgres then
    pass (firstKeywords? [["RESTART", "IDENTITY"], ["CONTINUE", "IDENTITY"]])
    dependents

end SqlCompose.Predicate
