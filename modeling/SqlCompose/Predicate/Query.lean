import SqlCompose.Predicate.Table

/-!
# Queries

A query combines selections, values and tables. A query that stands inside a term is kept by its
normal form alone. Queries stand in terms and terms in queries, up to a fixed depth of nesting;
`level` gives the readers of each depth.
-/

namespace SqlCompose.Predicate

open Reader

/-! ## Selections -/

/-- Whether repeated rows are kept, in its normal form. -/
def distinctText (lv : Level) : Reader (List String) := do
  let all ← keyword? "ALL"
  if ← keyword? "DISTINCT" then
    if all then refuse
    else if ← keyword? "ON" then
      let terms ← inParentheses (do if ← seesSign ")" then pure "" else lv.list)
      pure ["DISTINCT ON (" ++ terms ++ ")"]
    else pure ["DISTINCT"]
  else pure []

/-- The number of rows in front of the columns, in its normal form. -/
def topText (lv : Level) : Reader (List String) := do
  if ← keyword? "TOP" then
    let amount ←
      if ← seesSign "(" then (fun t => "(" ++ t ++ ")") <$> inParentheses lv.text
      else typeNumber
    let percent ← keyword? "PERCENT"
    let ties ← keywords? ["WITH", "TIES"]
    pure ["TOP " ++ amount ++ (if percent then " PERCENT" else "") ++
      (if ties then " WITH TIES" else "")]
  else pure []

/-- A term as a column. The word that introduces the tables is no column, and in some engines a
comparison with a name gives the name to a column. -/
def termColumn (d : Dialect) : Term → Reader String
  | .column [n] => do
    if (Lexeme.word n).isKeyword "FROM" then refuse else pure (n.write ++ (← columnAlias))
  | .binary (.known .eq) (.column [n]) right => do
    if hasTruthLiterals d then
      pure ((Term.binary (.known .eq) (.column [n]) right).text ++ (← columnAlias))
    else pure (right.text ++ " AS " ++ n.write)
  | t => do pure (t.text ++ (← columnAlias))

/-- A column of a selection. -/
def columnText (d : Dialect) (lv : Level) : Reader String := do
  match ← attempt starText with
  | some s => pure s
  | none => termColumn d (← lv.any)

/-- The table that a selection makes. -/
def intoText : Reader (Option String) :=
  behind ["INTO"] (do
    let temporary ← oneOf? ["TEMP", "TEMPORARY"]
    let unlogged ← keyword? "UNLOGGED"
    let table ← keyword? "TABLE"
    pure ("INTO " ++ (temporary.elim "" fun _ => "TEMPORARY ") ++
      (if unlogged then "UNLOGGED " else "") ++ (if table then "TABLE " else "") ++ (← pathText)))

/-- A list of values that each row is joined with, if one follows. -/
def lateralView (lv : Level) : Reader (Option String) :=
  behind ["LATERAL", "VIEW"] (do
    let outer ← keyword? "OUTER"
    let t ← lv.text
    let title ← pathText
    let columns ← commaList (givenName ["WHERE", "GROUP", "CLUSTER", "HAVING", "LATERAL"])
    let columns := (columns.filterMap id).map Name.write
    pure ("LATERAL VIEW" ++ (if outer then " OUTER" else "") ++ " " ++ t ++ " " ++ title ++
      (if columns.isEmpty then "" else " AS " ++ listText columns)))

/-- A selection; the word has been read. -/
def selectText (d : Dialect) (lv : Level) : Reader String := do
  let distinct ← distinctText lv
  let top ← topText lv
  let columns ← commaList (columnText d lv)
  let into ← intoText
  let tables ← behind ["FROM"] (tableList d lv)
  let views ← many (lateralView lv)
  let condition ← behind ["WHERE"] lv.text
  let inner ← innerClauses d lv
  pure (" ".intercalate
    ("SELECT" :: distinct ++ top ++ [listText columns] ++ into.toList ++
      (tables.map ("FROM " ++ ·)).toList ++ views ++ (condition.map ("WHERE " ++ ·)).toList ++
      inner.map Clause.text))

/-! ## Combinations -/

/-- A row of values and whether it is marked as one; in one engine a row may be empty. -/
def valueRow (d : Dialect) (lv : Level) : Reader (Bool × String) := do
  let marked ← keyword? "ROW"
  let values ← inParentheses (do
    if ← onlyIf (d == .mySql) (seesSign ")") then pure "" else lv.list)
  pure (marked, "(" ++ values ++ ")")

/-- Rows of values; the word has been read. One marked row marks all of them. -/
def valuesText (d : Dialect) (lv : Level) : Reader String := do
  let rows ← commaList (valueRow d lv)
  let mark := if rows.any (·.1) then "ROW" else ""
  pure ("VALUES " ++ listText (rows.map (mark ++ ·.2)))

/-- A lexeme behind the word for a table, taken also where the text has ended. -/
def nextIfAny : Reader (Option Lexeme) := attempt next

/-- A table in the place of a selection; the word has been read. Three lexemes belong to it. -/
def wholeTable : Reader String := do
  match ← nextIfAny, ← nextIfAny, ← nextIfAny with
  | some (.word schema), some (.sign "."), some (.word table) =>
    pure ("TABLE " ++ schema.text ++ "." ++ table.text)
  | _, some (.sign "."), _ => refuse
  | some (.word table), _, _ => pure ("TABLE " ++ table.text)
  | _, _, _ => refuse

/-- One member of a combination: a selection, a query in parentheses, rows of values or a table. -/
def memberText (d : Dialect) (lv : Level) : Reader String := do
  if ← keyword? "SELECT" then selectText d lv
  else if ← seesSign "(" then (fun q => "(" ++ q ++ ")") <$> inParentheses lv.query
  else if ← keyword? "VALUES" then valuesText d lv
  else if ← keyword? "TABLE" then wholeTable
  else refuse

/-- How a combination treats repeated rows and the order of columns. -/
def combinationWords : List (List String) :=
  [["DISTINCT", "BY", "NAME"], ["BY", "NAME"], ["ALL", "BY", "NAME"], ["ALL"], ["DISTINCT"]]

/-- A further member of a combination and the words before it. -/
def combinedText (d : Dialect) (lv : Level) : Reader (Option String) := do
  match ← oneOf? ["UNION", "EXCEPT", "INTERSECT"] with
  | some op => do
    let each ← firstKeywords? combinationWords
    let m ← memberText d lv
    pure (some (" " ++ " ".intercalate (op :: each.getD [] ++ [m])))
  | none => pure none

/-! ## Queries with names -/

/-- Whether a query with a name is kept while the whole query runs; one engine lets it be said. -/
def keptWords (d : Dialect) : Reader String := do
  if d = .postgres then
    let words ← firstKeywords? [["MATERIALIZED"], ["NOT", "MATERIALIZED"]]
    pure (words.elim "" (" ".intercalate · ++ " "))
  else pure ""

/-- A query under a name of its own. -/
def commonTable (d : Dialect) (lv : Level) : Reader String := do
  let n ← name
  let columns ← if ← sees ["AS"] then pure "" else namedColumns d
  keyword "AS"
  let kept ← keptWords d
  let q ← inParentheses lv.query
  let source ← behind ["FROM"] name
  pure (n.write ++ columns ++ " AS " ++ kept ++ "(" ++ q ++ ")" ++
    (source.elim "" fun s => " FROM " ++ s.write))

/-- The queries with names in front of a query. -/
def commonTables (d : Dialect) (lv : Level) : Reader (Option String) :=
  behind ["WITH"] (do
    let recursive ← keyword? "RECURSIVE"
    let tables ← commaList (commonTable d lv)
    pure ((if recursive then "WITH RECURSIVE " else "WITH ") ++ listText tables ++ " "))

/-- A query, in its normal form. -/
def queryText (d : Dialect) (lv : Level) : Reader String := do
  let withs ← commonTables d lv
  let first ← memberText d lv
  let more ← many (combinedText d lv)
  let outer ← outerClauses d lv
  pure (withs.getD "" ++ first ++ String.join more ++ clausesText outer)

/-! ## Levels -/

/-- The readers of a level, where so many levels are left. -/
def level (d : Dialect) (namesPrior : Bool) : Nat → Level
  | 0 => .none
  | depth + 1 =>
    { term := fun least => climb d (level d namesPrior depth) least
      relation := fun least => climb d (level d true depth) least
      namesPrior := namesPrior
      query := fun rest => queryText d (level d namesPrior depth) rest
      tables := fun rest => joinedTables d (level d namesPrior depth) rest }

end SqlCompose.Predicate
