import SqlCompose.Predicate.Operation

/-!
# Clauses of a query

Behind its condition a selection may group and sort its rows, and a whole query may be ordered, cut
into pages and locked. A clause is kept by its kind, which decides whether a text is still a
predicate, and by its normal form.
-/

namespace SqlCompose.Predicate

open Reader

/-- The kinds of clauses. -/
inductive ClauseKind where
  /-- A grouping, or a condition on groups. -/
  | grouping
  /-- An ordering, or a number of rows. -/
  | ordering
  /-- Any other clause. -/
  | other
deriving DecidableEq, Repr

/-- A clause of a query, in its normal form. -/
structure Clause where
  /-- The kind of the clause. -/
  kind : ClauseKind
  /-- The clause in its normal form. -/
  text : String
deriving DecidableEq, Repr

/-- The normal forms of clauses, each behind a blank. -/
def clausesText (clauses : List Clause) : String :=
  String.join (clauses.map fun c => " " ++ c.text)

/-- A clause of keywords and what follows them, if the keywords follow. -/
def clause? (kind : ClauseKind) (ks : List String) (p : Reader String) : Reader (List Clause) := do
  let text ← behind ks p
  pure (text.toList.map fun s => ⟨kind, " ".intercalate ks ++ " " ++ s⟩)

/-! ## Groups -/

/-- The terms of a grouping set in parentheses. -/
def setTerms (lv : Level) : Reader (List String) := inParentheses do
  if ← seesSign ")" then pure [] else commaList lv.text

/-- Grouping terms in parentheses. -/
def setText (texts : List String) : String := "(" ++ listText texts ++ ")"

/-- A member of a cube or a rollup: a term, or terms in parentheses, which are dropped around a
single one. -/
def hierarchyMember (lv : Level) : Reader String := do
  if ← seesSign "(" then
    match ← setTerms lv with
    | [text] => pure text
    | texts => pure (setText texts)
  else lv.text

/-- What rows are grouped by, where sets of terms are known. -/
def groupingSet (lv : Level) : Reader String := do
  if ← keywords? ["GROUPING", "SETS"] then
    let sets ← inParentheses (commaList (setText <$> setTerms lv))
    pure ("GROUPING SETS " ++ setText sets)
  else
    match ← oneOf? ["CUBE", "ROLLUP"] with
    | some word => do
      let members ← inParentheses (commaList (hierarchyMember lv))
      pure (word ++ " " ++ setText members)
    | none => do
      let opened ← seesSign "("
      if opened && (← peek 1) == some (.sign ")") then setText <$> setTerms lv else lv.text

/-- What rows are grouped by. -/
def groupingText (d : Dialect) (lv : Level) : Reader String := do
  if ← keyword? "ALL" then pure "ALL"
  else listText <$> commaList (if d = .postgres then groupingSet lv else lv.text)

/-! ## Clauses of one selection -/

/-- A window with its name. -/
def namedWindow (d : Dialect) (lv : Level) : Reader String := do
  let n ← name
  keyword "AS"
  pure (n.write ++ " AS " ++ (← windowText d lv))

/-- The windows of a selection. -/
def windowClause (d : Dialect) (lv : Level) : Reader (List Clause) :=
  clause? .other ["WINDOW"] (listText <$> commaList (namedWindow d lv))

/-- The windows of a selection and the condition on their values, in either order. -/
def windowClauses (d : Dialect) (lv : Level) : Reader (List Clause) := do
  let first ← windowClause d lv
  let condition ← clause? .other ["QUALIFY"] lv.text
  let last ← if first.isEmpty && !condition.isEmpty then windowClause d lv else pure []
  pure (first ++ condition ++ last)

/-- Where a hierarchy of rows starts; the words have been read. -/
def hierarchyStart (lv : Level) : Reader String := lv.text

/-- How the rows of a hierarchy are connected; the words have been read. -/
def hierarchySteps (lv : Level) : Reader String :=
  listText <$> commaList (Term.text <$> lv.relation 0)

/-- The hierarchy of the rows of a selection: its start and its steps, in either order. -/
def hierarchyClause (lv : Level) : Reader (List Clause) := do
  if ← keywords? ["CONNECT", "BY"] then
    let steps ← hierarchySteps lv
    keywords ["START", "WITH"]
    written (← hierarchyStart lv) steps
  else if ← keywords? ["START", "WITH"] then
    let start ← hierarchyStart lv
    keywords ["CONNECT", "BY"]
    written start (← hierarchySteps lv)
  else pure []
where
  /-- The clause with this start and these steps. -/
  written (start steps : String) : Reader (List Clause) :=
    pure [⟨.other, "START WITH " ++ start ++ " CONNECT BY " ++ steps⟩]

/-- The clauses that belong to one selection, behind its condition. -/
def innerClauses (d : Dialect) (lv : Level) : Reader (List Clause) := do
  let group ← clause? .grouping ["GROUP", "BY"] (groupingText d lv)
  let cluster ← clause? .other ["CLUSTER", "BY"] lv.list
  let distribute ← clause? .other ["DISTRIBUTE", "BY"] lv.list
  let sort ← clause? .other ["SORT", "BY"] lv.list
  let having ← clause? .grouping ["HAVING"] lv.text
  let windows ← windowClauses d lv
  let hierarchy ← if hasTruthLiterals d then pure [] else hierarchyClause lv
  pure (group ++ cluster ++ distribute ++ sort ++ having ++ windows ++ hierarchy)

/-! ## Pages -/

/-- The page of rows that a query keeps, as far as it has been read. -/
structure Page where
  /-- The number of rows, which all rows do not have. -/
  limit : Option String
  /-- The rows that are skipped. -/
  offset : Option String

/-- The number of rows that a page keeps; all rows are no number. -/
def limitText (lv : Level) : Reader (Option String) := do
  let limit ← behind ["LIMIT"] (do if ← keyword? "ALL" then pure none else some <$> lv.text)
  pure limit.join

/-- The rows that are skipped. -/
def offsetText (lv : Level) : Reader (Option String) :=
  behind ["OFFSET"] (do
    let t ← lv.text
    pure (t ++ ((← oneOf? ["ROW", "ROWS"]).elim "" (" " ++ ·))))

/-- A page with what follows of it; one engine has both numbers behind `LIMIT`, the rows that are
skipped first. -/
def Page.further (d : Dialect) (lv : Level) (page : Page) : Reader Page := do
  let limit ← if page.limit.isNone then limitText lv else pure page.limit
  let offset ← if page.offset.isNone then offsetText lv else pure page.offset
  match limit, offset with
  | some first, none =>
    if ← onlyIf (d == .mySql) (sign? ",") then pure ⟨some (← lv.text), some first⟩
    else pure ⟨limit, none⟩
  | _, _ => pure ⟨limit, offset⟩

/-- The clauses for a page. -/
def Page.clauses (page : Page) : List Clause :=
  (page.limit.toList.map fun s => ⟨.ordering, "LIMIT " ++ s⟩) ++
    (page.offset.toList.map fun s => ⟨.ordering, "OFFSET " ++ s⟩)

/-- The page that a query keeps; its two parts stand in either order. -/
def pageClauses (d : Dialect) (lv : Level) : Reader (List Clause) := do
  let page ← Page.further d lv ⟨none, none⟩
  Page.clauses <$> page.further d lv

/-- The rows that are fetched; the word has been read. -/
def fetchText (d : Dialect) : Reader String := do
  let _ ← oneOf ["FIRST", "NEXT"]
  let amount ←
    if (← oneOf? ["ROW", "ROWS"]).isSome then pure ""
    else do
      let n ← literal d
      let percent ← keyword? "PERCENT"
      let _ ← oneOf ["ROW", "ROWS"]
      pure (n.text ++ (if percent then " PERCENT" else "") ++ " ")
  if ← keyword? "ONLY" then pure ("FIRST " ++ amount ++ "ROWS ONLY")
  else if ← keywords? ["WITH", "TIES"] then pure ("FIRST " ++ amount ++ "ROWS WITH TIES")
  else refuse

/-! ## Locks and documents -/

/-- How rows are locked; the word `FOR` has been read. -/
def lockText : Reader String := do
  let word ← oneOf ["UPDATE", "SHARE"]
  let table ← behind ["OF"] pathText
  let wait ← firstKeywords? [["NOWAIT"], ["SKIP", "LOCKED"]]
  pure (word ++ (table.elim "" (" OF " ++ ·)) ++ (wait.elim "" (" " ++ " ".intercalate ·)))

/-- A name for an element, in apostrophes and parentheses. -/
def elementName : Reader String := do
  let content ← inParentheses literalText
  pure ("('" ++ content ++ "')")

/-- A name for an element, or nothing. -/
def optionalElementName : Reader String := do
  if ← seesSign "(" then elementName else pure ""

/-- The options of a document, under the words they are written with. -/
def documentOptions (ks : List (List String)) : Reader (List (String × String)) := do
  let options ← many (afterComma (do
    match ← firstKeywords? ks with
    | some ["ROOT"] => do pure [("ROOT", ← elementName)]
    | some words => pure [(" ".intercalate words, "")]
    | none => pure []))
  pure options.flatten

/-- Options of a document in the order of these words; of several names the last one counts. -/
def optionsText (words : List String) (options : List (String × String)) : String :=
  String.join (words.filterMap fun w =>
    (options.reverse.lookup w).map fun text => ", " ++ w ++ text)

/-- The form in which rows are written as a document; the word `FOR` has been read. -/
def documentText : Reader String := do
  match ← oneOf ["XML", "JSON", "BROWSE"] with
  | "XML" => do
    let form ← oneOf ["RAW", "AUTO", "EXPLICIT", "PATH"]
    let element ← if form == "RAW" || form == "PATH" then optionalElementName else pure ""
    let options ← documentOptions [["ELEMENTS"], ["BINARY", "BASE64"], ["ROOT"], ["TYPE"]]
    pure ("XML " ++ form ++ element ++
      optionsText ["BINARY BASE64", "TYPE", "ROOT", "ELEMENTS"] options)
  | "JSON" => do
    let form ← oneOf ["AUTO", "PATH"]
    let options ← documentOptions [["ROOT"], ["INCLUDE_NULL_VALUES"], ["WITHOUT_ARRAY_WRAPPER"]]
    pure ("JSON " ++ form ++
      optionsText ["ROOT", "INCLUDE_NULL_VALUES", "WITHOUT_ARRAY_WRAPPER"] options)
  | word => pure word

/-- The locks of the rows and, behind them, the form in which they are written. -/
def rowClauses : Reader (List Clause) := do
  let locks ← many (do
    if ← seesAt 1 ["XML", "JSON", "BROWSE"] then pure none else behind ["FOR"] lockText)
  let document ← clause? .other ["FOR"] documentText
  pure (locks.map (fun s => ⟨.other, "FOR " ++ s⟩) ++ document)

/-- The clauses that belong to a whole query. -/
def outerClauses (d : Dialect) (lv : Level) : Reader (List Clause) := do
  let order ← orderingText lv
  let pages ← pageClauses d lv
  let fetch ← clause? .other ["FETCH"] (fetchText d)
  let rows ← rowClauses
  pure ((order.toList.map fun s => ⟨.ordering, s⟩) ++ pages ++ fetch ++ rows)

end SqlCompose.Predicate
