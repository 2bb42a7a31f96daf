import SqlCompose.Predicate.Clause

/-!
# Tables of a query

A selection takes its rows from tables, from queries in parentheses and from functions, which joins
put together. All of them may be given names. Only their normal form is kept.
-/

namespace SqlCompose.Predicate

open Reader

/-! ## Given names -/

/-- The words that end a column as well as a table, and so are no names given to them. -/
def sharedEndings : List String :=
  ["WITH", "EXPLAIN", "ANALYZE", "SELECT", "WHERE", "GROUP", "SORT", "HAVING", "ORDER", "TOP",
    "LATERAL", "VIEW", "LIMIT", "OFFSET", "FETCH", "UNION", "EXCEPT", "INTERSECT", "CLUSTER",
    "DISTRIBUTE", "RETURNING", "END"]

/-- The words that end a column. -/
def columnEndings : List String := ["FROM", "INTO"] ++ sharedEndings

/-- The words that end a table. -/
def tableEndings : List String :=
  ["PIVOT", "UNPIVOT", "ON", "JOIN", "INNER", "CROSS", "FULL", "LEFT", "RIGHT", "NATURAL", "USING",
    "GLOBAL", "ANTI", "SEMI", "ASOF", "MATCH_CONDITION", "OUTER", "SET", "QUALIFY", "WINDOW",
    "FOR", "PARTITION", "PREWHERE", "SETTINGS", "FORMAT", "START", "CONNECT", "MATCH_RECOGNIZE",
    "SAMPLE", "TABLESAMPLE"] ++ sharedEndings

/-- A given name, if one follows: behind `AS` any name, else none of these words. -/
def givenName (endings : List String) : Reader (Option Name) := do
  if ← keyword? "AS" then some <$> name
  else if ← sees endings then pure none
  else
    match ← peek 0 with
    | some (.word _) | some (.quoted .plain _) | some (.quoted .quotation _) => some <$> name
    | _ => pure none

/-- The name given to a column, in its normal form, or nothing. -/
def columnAlias : Reader String := do
  pure ((← givenName columnEndings).elim "" fun n => " AS " ++ n.write)

/-- A column of a table with a given name, and its type if it has one. -/
def namedColumn (d : Dialect) : Reader String := do
  let n ← name
  let t ← attempt (typeName d)
  pure (n.write ++ (t.elim "" (" " ++ ·.text)))

/-- The columns of a table with a given name, in their normal form, or nothing. -/
def namedColumns (d : Dialect) : Reader String := do
  let columns ← inOptionalParentheses (listText <$> commaList (namedColumn d))
  pure (if columns.isEmpty then "" else " " ++ columns)

/-- The name given to a table and to its columns, in its normal form, or nothing. -/
def tableAlias (d : Dialect) : Reader String := do
  match ← givenName tableEndings with
  | some n => do pure (" AS " ++ n.write ++ (← namedColumns d))
  | none => pure ""

/-! ## Tables -/

/-- The arguments of a function that gives rows. -/
def rowArguments (d : Dialect) (lv : Level) : Reader String := inParentheses do
  if ← seesSign ")" then pure "()"
  else do
    let args ← commaList (argumentText d lv)
    pure ("(" ++ listText args ++ ")")

/-- A query in parentheses with its given name. -/
def derivedTable (d : Dialect) (lv : Level) : Reader String := do
  let q ← inParentheses lv.query
  pure ("(" ++ q ++ ")" ++ (← tableAlias d))

/-- A table that sees the tables before it; the word has been read. -/
def lateralTable (d : Dialect) (lv : Level) : Reader String := do
  if ← seesSign "(" then derivedTable d lv
  else
    let path ← pathText
    let args ← rowArguments d lv
    pure (path ++ args ++ (← tableAlias d))

/-- The rows of arrays; the word has been read. A `WITH` behind them says nothing by itself. -/
def arrayRows (d : Dialect) (lv : Level) : Reader String := do
  let arrays ← inParentheses lv.list
  let numbered ← keywords? ["WITH", "ORDINALITY"]
  let given ← tableAlias d
  let word ← keyword? "WITH"
  let offset ← onlyIf word (keyword? "OFFSET")
  let offsetName ← if offset then columnAlias else pure ""
  pure ("UNNEST(" ++ arrays ++ ")" ++ (if numbered then " WITH ORDINALITY" else "") ++ given ++
    (if offset then " WITH OFFSET" else "") ++ offsetName)

/-- The hints for a table. -/
def tableHints (lv : Level) : Reader String := do
  if (← peek 1) == some (.sign "(") then
    let hints ← behind ["WITH"] (inParentheses lv.list)
    pure (hints.elim "" (" WITH (" ++ · ++ ")"))
  else pure ""

/-- A table with a name, or a function that gives rows. -/
def namedTable (d : Dialect) (lv : Level) : Reader String := do
  let path ← pathText
  let parts ← if d = .mySql then behind ["PARTITION"] (inParentheses namesText) else pure none
  let moment ←
    if hasTruthLiterals d then pure none
    else behind ["FOR", "SYSTEM_TIME", "AS", "OF"] lv.text
  let args ← if ← seesSign "(" then rowArguments d lv else pure ""
  let numbered ← keywords? ["WITH", "ORDINALITY"]
  let given ← tableAlias d
  let hints ← tableHints lv
  pure (path ++ (parts.elim "" ("PARTITION (" ++ · ++ ")")) ++ args ++
    (if numbered then " WITH ORDINALITY" else "") ++ given ++ hints ++
    (moment.elim "" (" FOR SYSTEM_TIME AS OF " ++ ·)))

/-- Tables in parentheses with their given name; a table alone does not stand in parentheses. -/
def nestedTables (d : Dialect) (lv : Level) : Reader String := do
  let inner ← inParentheses lv.tables
  if inner.joined then pure ("(" ++ inner.text ++ ")" ++ (← tableAlias d)) else refuse

/-- One place of the tables that a query takes its rows from. -/
def tableText (d : Dialect) (lv : Level) : Reader TableText := do
  if ← keyword? "LATERAL" then
    pure ⟨"LATERAL " ++ (← lateralTable d lv), false⟩
  else if ← keyword? "TABLE" then
    let t ← inParentheses lv.text
    pure ⟨"TABLE(" ++ t ++ ")" ++ (← tableAlias d), false⟩
  else if ← seesSign "(" then
    match ← attempt (derivedTable d lv) with
    | some text => pure ⟨text, false⟩
    | none => do pure ⟨← nestedTables d lv, true⟩
  else if ← onlyIf (d == .postgres) (keyword? "UNNEST") then
    pure ⟨← arrayRows d lv, false⟩
  else pure ⟨← namedTable d lv, false⟩

/-! ## Joins -/

/-- The words of joins without a condition. -/
def plainJoins : List (List String) := [["CROSS", "JOIN"], ["CROSS", "APPLY"], ["OUTER", "APPLY"]]

/-- The words of joins that may have a condition. -/
def conditionalJoins : List (List String) :=
  [["JOIN"], ["INNER", "JOIN"], ["LEFT", "JOIN"], ["LEFT", "OUTER", "JOIN"],
    ["LEFT", "SEMI", "JOIN"], ["LEFT", "ANTI", "JOIN"], ["RIGHT", "JOIN"],
    ["RIGHT", "OUTER", "JOIN"], ["RIGHT", "SEMI", "JOIN"], ["RIGHT", "ANTI", "JOIN"],
    ["FULL", "JOIN"], ["FULL", "OUTER", "JOIN"]]

/-- The words of a join with a condition, without those that say nothing. -/
def joinWords (ks : List String) : String :=
  " ".intercalate (ks.filter fun k => k != "INNER" && k != "OUTER")

/-- The condition of a join, or nothing. -/
def joinCondition (lv : Level) : Reader String := do
  match ← behind ["ON"] lv.text with
  | some t => pure (" ON " ++ t)
  | none => do
    let columns ← behind ["USING"] (inParentheses namesText)
    pure (columns.elim "" (" USING(" ++ · ++ ")"))

/-- A join whose condition may follow it, in its normal form, if one follows. -/
def conditionalJoin (d : Dialect) (lv : Level) : Reader (Option String) := do
  let natural ← keyword? "NATURAL"
  match ← firstKeywords? conditionalJoins with
  | some ks => do
    let t ← tableText d lv
    let condition ← if natural then pure "" else joinCondition lv
    pure (some ((if natural then "NATURAL " else "") ++ joinWords ks ++ " " ++ t.text ++ condition))
  | none => if natural then refuse else pure none

/-- A join with the nearest row; the words have been read. -/
def nearestJoin (d : Dialect) (lv : Level) : Reader String := do
  let t ← tableText d lv
  keyword "MATCH_CONDITION"
  let nearest ← inParentheses lv.text
  pure ("ASOF JOIN " ++ t.text ++ " MATCH_CONDITION (" ++ nearest ++ ")" ++ (← joinCondition lv))

/-- A join, in its normal form, if one follows. The word `GLOBAL` without a join says nothing. -/
def joinText (d : Dialect) (lv : Level) : Reader (Option String) := do
  let start := if ← keyword? "GLOBAL" then " GLOBAL " else " "
  match ← firstKeywords? plainJoins with
  | some ks => do pure (some (start ++ " ".intercalate ks ++ " " ++ (← tableText d lv).text))
  | none => do
    match ← behind ["ASOF", "JOIN"] (nearestJoin d lv) with
    | some text => pure (some (start ++ text))
    | none => do pure ((← conditionalJoin d lv).map (start ++ ·))

/-- A table with its joins. -/
def joinedTables (d : Dialect) (lv : Level) : Reader TableText := do
  let t ← tableText d lv
  let joins ← many (joinText d lv)
  pure ⟨t.text ++ String.join joins, t.joined || !joins.isEmpty⟩

/-- Tables with commas between, in their normal form. -/
def tableList (d : Dialect) (lv : Level) : Reader String := do
  pure (listText ((← commaList (joinedTables d lv)).map TableText.text))

end SqlCompose.Predicate
