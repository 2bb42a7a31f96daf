import SqlCompose.Predicate.Level

/-!
# Calls

A call has its arguments in parentheses, with clauses of its own behind them, and may go on with a
window. Query expressions have no calls, so all that is kept of one is its normal form.
-/

namespace SqlCompose.Predicate

open Reader

/-! ## Windows -/

/-- A bound of a frame. -/
def frameBound (d : Dialect) (lv : Level) : Reader String := do
  if ← keywords? ["CURRENT", "ROW"] then pure "CURRENT ROW"
  else
    let amount ←
      if ← keyword? "UNBOUNDED" then pure "UNBOUNDED"
      else
        match ← peek 0 with
        | some (.quoted .plain _) => spanText d lv
        | _ => lv.text
    pure (amount ++ " " ++ (← oneOf ["PRECEDING", "FOLLOWING"]))

/-- The frame of a window. -/
def frameText (d : Dialect) (lv : Level) : Reader String := do
  let units ← oneOf ["ROWS", "RANGE", "GROUPS"]
  if ← keyword? "BETWEEN" then
    let first ← frameBound d lv
    keyword "AND"
    pure (units ++ " BETWEEN " ++ first ++ " AND " ++ (← frameBound d lv))
  else pure (units ++ " " ++ (← frameBound d lv))

/-- The window that another one starts from. -/
def baseWindow : Reader (Option Name) := do
  match ← peek 0 with
  | some (.word n) => if n.isPlain then some <$> name else pure none
  | _ => pure none

/-- A window in parentheses. -/
def windowText (d : Dialect) (lv : Level) : Reader String := inParentheses do
  let base ← baseWindow
  let parts ← behind ["PARTITION", "BY"] lv.list
  let order ← orderingText lv
  let frame ← if ← seesSign ")" then pure none else some <$> frameText d lv
  pure ("(" ++ " ".intercalate
    ((base.map Name.write).toList ++ (parts.map ("PARTITION BY " ++ ·)).toList ++ order.toList ++
      frame.toList) ++ ")")

/-! ## Arguments -/

/-- A term or a star, in its normal form. -/
def starOrText (lv : Level) : Reader String := do
  match ← attempt starText with
  | some s => pure s
  | none => lv.text

/-- The mark between the name of an argument and the argument. -/
def argumentMark (d : Dialect) : Reader String := do
  if ← keyword? "VALUE" then pure "VALUE"
  else if ← onlyIf (hasTruthLiterals d) (sign? "=>") then pure "=>"
  else if ← onlyIf (d != .mySql) (sign? ":") then pure ":"
  else refuse

/-- An argument behind its mark. -/
def markedArgument (d : Dialect) (lv : Level) (title : String) : Reader String := do
  let mark ← argumentMark d
  pure (title ++ " " ++ mark ++ " " ++ (← starOrText lv))

/-- An argument of a call. In one engine its name is a name, in the others any term. -/
def argumentText (d : Dialect) (lv : Level) : Reader String := do
  if d = .mySql then
    match ← attempt (do markedArgument d lv (← name).write) with
    | some text => pure text
    | none => starOrText lv
  else
    match ← attempt starText with
    | some s => pure s
    | none => do
      let t ← lv.text
      pure ((← attempt (markedArgument d lv t)).getD t)

/-- What a call for a document does with nulls. -/
def nullClause : Reader (Option String) := do
  if ← keywords? ["ABSENT", "ON", "NULL"] then pure (some "ABSENT ON NULL")
  else if ← keywords? ["NULL", "ON", "NULL"] then pure (some "NULL ON NULL")
  else pure none

/-- The text that stands for what is cut off. -/
def overflowFiller (lv : Level) : Reader (Option String) := do
  match ← peek 0 with
  | some (.quoted .plain _) | some (.quoted .escaped _) | some (.quoted .unicode _)
  | some (.quoted .national _) | some (.quoted .hexadecimal _) => some <$> lv.text
  | _ => if ← sees ["WITH", "WITHOUT"] then pure none else refuse

/-- What a call that joins texts does if the result is too long. -/
def overflowText (lv : Level) : Reader String := do
  if ← keyword? "ERROR" then pure "ON OVERFLOW ERROR"
  else
    keyword "TRUNCATE"
    let filler ← overflowFiller lv
    let counted ← oneOf ["WITH", "WITHOUT"]
    keyword "COUNT"
    pure ("ON OVERFLOW TRUNCATE" ++ (filler.elim "" (" " ++ ·)) ++ " " ++ counted ++ " COUNT")

/-- The clauses behind the arguments of a call. -/
def argumentClauses (d : Dialect) (lv : Level) : Reader (List String) := do
  let order ← orderingText lv
  let limit ← behind ["LIMIT"] lv.text
  let separator ← if d = .mySql then behind ["SEPARATOR"] (literal d) else pure none
  let overflow ← behind ["ON", "OVERFLOW"] (overflowText lv)
  let nulls ← nullClause
  pure (order.toList ++ (limit.map ("LIMIT " ++ ·)).toList ++
    (separator.map ("SEPARATOR " ++ ·.text)).toList ++ overflow.toList ++ nulls.toList)

/-- The arguments of a call, in parentheses. -/
def argumentsText (d : Dialect) (lv : Level) : Reader String := inParentheses do
  let nulls ← nullClause
  if ← seesSign ")" then pure ("(" ++ nulls.getD "" ++ ")")
  else
    let all ← keyword? "ALL"
    let distinct ← keyword? "DISTINCT"
    if all && distinct then refuse
    let args ← commaList (argumentText d lv)
    let clauses ← argumentClauses d lv
    pure ("(" ++ (if all then "ALL " else if distinct then "DISTINCT " else "") ++
      " ".intercalate (listText args :: nulls.toList ++ clauses) ++ ")")

/-! ## Whole calls -/

/-- The condition on the rows that a call sees. The word alone, or with a parenthesis, says
nothing. -/
def filterText (lv : Level) : Reader (Option String) := do
  let word ← keyword? "FILTER"
  let opened ← onlyIf word (sign? "(")
  if ← onlyIf opened (keyword? "WHERE") then
    let t ← lv.text
    sign ")"
    pure (some t)
  else pure none

/-- How a call treats nulls. -/
def nullTreatment : Reader (Option String) := do
  match ← oneOf? ["RESPECT", "IGNORE"] with
  | some word => do
    keyword "NULLS"
    pure (some (word ++ " NULLS"))
  | none => pure none

/-- What may follow the arguments of a call, in its normal form. -/
def callSuffix (d : Dialect) (lv : Level) : Reader String := do
  let within ← behind ["WITHIN", "GROUP"] (inParentheses do
    match ← orderingText lv with
    | some order => pure order
    | none => refuse)
  let filter ← if d = .postgres then filterText lv else pure none
  let nulls ← nullTreatment
  let overWindow ← behind ["OVER"] (do
    if ← seesSign "(" then windowText d lv else Name.write <$> name)
  pure ((within.elim "" (" WITHIN GROUP (" ++ · ++ ")")) ++
    (filter.elim "" (" FILTER (WHERE " ++ · ++ ")")) ++ (nulls.elim "" (" " ++ ·)) ++
    (overWindow.elim "" (" OVER " ++ ·)))

/-- A call of a named function, in its normal form. -/
def callText (d : Dialect) (lv : Level) (path : List Name) : Reader String := do
  let args ← argumentsText d lv
  pure (writePath path ++ args ++ (← callSuffix d lv))

end SqlCompose.Predicate
