import SqlCompose.Predicate.Binding
import SqlCompose.Predicate.Reader
import SqlCompose.Predicate.TypeName

/-!
# One level of nesting

Terms and queries nest up to a fixed depth. The readers of one level are made from those of the
level below, so the grammar is a recursion on the depth that is left. This module holds what a
level offers and the small forms that other modules share.
-/

namespace SqlCompose.Predicate

open Reader

/-- Tables with their joins. -/
structure TableText where
  /-- The tables in their normal form. -/
  text : String
  /-- Whether they may stand in parentheses, which a table alone may not. -/
  joined : Bool

/-- The readers of one level of nesting. -/
structure Level where
  /-- A term whose operators bind more tightly than a strength. -/
  term : Nat → Reader Term
  /-- A term between the rows of a hierarchy, which may name the row above. -/
  relation : Nat → Reader Term
  /-- Whether terms of the level itself may name the row above. -/
  namesPrior : Bool
  /-- A query, in its normal form. -/
  query : Reader String
  /-- Tables with their joins. -/
  tables : Reader TableText

namespace Level

/-- The level below the last one, where nothing can be read. -/
def none : Level := ⟨fun _ => refuse, fun _ => refuse, false, refuse, refuse⟩

/-- Any term. -/
def any (lv : Level) : Reader Term := lv.term 0

/-- Any term, in its normal form. -/
def text (lv : Level) : Reader String := Term.text <$> lv.any

/-- Terms with commas between, in their normal form. -/
def list (lv : Level) : Reader String := listText <$> commaList lv.text

end Level

/-- Whether a dialect reads `TRUE` and `FALSE` as literals. -/
def hasTruthLiterals (d : Dialect) : Bool := d != .sqlServer && d != .sqlServerLegacy

/-- Whether a query follows. -/
def seesQuery : Reader Bool := sees ["SELECT", "WITH"]

/-! ## Literals -/

/-- The literal that a lexeme is, keywords apart. -/
def literalOf? : Lexeme → Option Literal
  | .number digits long => some (.number digits long)
  | .quoted form content => some (.quoted form content)
  | .placeholder text => some (.placeholder text)
  | _ => none

/-- The literal that a keyword is. -/
def literalWord? (d : Dialect) (k : String) : Option Literal :=
  if k == "NULL" then some .null
  else if hasTruthLiterals d then
    if k == "TRUE" then some (.bool true)
    else if k == "FALSE" then some (.bool false)
    else none
  else none

/-- A placeholder that a sign introduces: a colon or `@` and a name or a number. -/
def signedPlaceholder (s : String) : Reader Literal := do
  match ← next with
  | .word n => pure (.placeholder (s ++ n.text))
  | .number digits false => pure (.placeholder (s ++ digits))
  | _ => refuse

/-- A literal. -/
def literal (d : Dialect) : Reader Literal := do
  let l ← next
  match literalOf? l with
  | some v => pure v
  | none =>
    match l with
    | .sign ":" => signedPlaceholder ":"
    | .sign "@" => signedPlaceholder "@"
    | .word ⟨text, some '"'⟩ => pure (.quoted .quotation text)
    | l =>
      match l.keyword?.bind (literalWord? d) with
      | some v => pure v
      | none => refuse

/-! ## Parts of dates -/

/-- The units of time spans. -/
def timeUnits : List String :=
  ["YEAR", "MONTH", "WEEK", "DAY", "HOUR", "MINUTE", "SECOND", "CENTURY", "DECADE", "DOW", "DOY",
    "EPOCH", "ISODOW", "ISOYEAR", "JULIAN", "MICROSECOND", "MICROSECONDS", "MILLENIUM",
    "MILLENNIUM", "MILLISECOND", "MILLISECONDS", "NANOSECOND", "NANOSECONDS", "QUARTER",
    "TIMEZONE", "TIMEZONE_HOUR", "TIMEZONE_MINUTE"]

/-- The words for parts of dates and times. -/
def dateParts : List String :=
  timeUnits ++ ["DAYOFWEEK", "DAYOFYEAR", "DATE", "DATETIME", "ISOWEEK", "TIME", "TIMEZONE_ABBR",
    "TIMEZONE_REGION"]

/-- A part of a date, in its normal form; one engine takes any name. -/
def datePart (d : Dialect) : Reader String := do
  match ← attempt (oneOf dateParts) with
  | some k => pure k
  | none => if d = .postgres then Name.write <$> name else refuse

/-- A strength that no operator has, so that a term ends behind its first operand. -/
def operandStrength : Nat := 1000

/-- What stands behind the unit of a time span: precisions and a further unit. -/
def spanPrecision (d : Dialect) (unit : Option String) : Reader String := do
  if unit == some "SECOND" then
    inOptionalSpan (do
      let p ← typeNumber
      if ← sign? "," then pure (p ++ ", " ++ (← typeNumber)) else pure p)
  else
    let leading ← inOptionalSpan typeNumber
    match ← behind ["TO"] (datePart d) with
    | some last => do
      let fraction ← if last == "SECOND" then inOptionalSpan typeNumber else pure ""
      pure (leading ++ " TO " ++ last ++ fraction)
    | none => pure leading
where
  /-- Numbers in parentheses behind a blank, or nothing. -/
  inOptionalSpan (p : Reader String) : Reader String := do
    let s ← inOptionalParentheses p
    pure (if s.isEmpty then "" else " " ++ s)

/-- A span of time, without the word for it; in one engine it always has a unit. -/
def spanText (d : Dialect) (lv : Level) : Reader String := do
  let value ← Term.text <$> lv.term (if d = .mySql then 0 else operandStrength)
  let unit ← oneOf? timeUnits
  if unit.isNone && d = .mySql then refuse
  else
    let precision ← spanPrecision d unit
    pure ("INTERVAL " ++ value ++ (unit.elim "" (" " ++ ·)) ++ precision)

/-! ## Orderings -/

/-- A sorting term with its direction, in its normal form. -/
def sortingText (lv : Level) : Reader String := do
  let t ← lv.text
  let direction ← oneOf? ["ASC", "DESC"]
  let nulls ←
    if ← keywords? ["NULLS", "FIRST"] then pure " NULLS FIRST"
    else if ← keywords? ["NULLS", "LAST"] then pure " NULLS LAST"
    else pure ""
  pure (t ++ (direction.elim "" (" " ++ ·)) ++ nulls)

/-- An ordering, in its normal form, or nothing. -/
def orderingText (lv : Level) : Reader (Option String) := do
  let list ← behind ["ORDER", "BY"] (commaList (sortingText lv))
  pure (list.map fun ts => "ORDER BY " ++ listText ts)

/-! ## Paths with a star -/

/-- A part of a path: a name, or a text between apostrophes. -/
def pathPart : Reader Name := do
  match ← next with
  | .word n => pure n
  | .quoted .plain content => pure ⟨content, some apostrophe⟩
  | _ => refuse

/-- A star, or a path that ends in one. -/
def starText : Reader String := do
  if ← sign? "*" then pure "*"
  else
    let first ← pathPart
    let more ← many (do
      if (← seesSign ".") && (← peek 1) != some (.sign "*") then
        sign "."
        some <$> pathPart
      else pure none)
    sign "."
    sign "*"
    pure (writePath (first :: more) ++ ".*")

end SqlCompose.Predicate
