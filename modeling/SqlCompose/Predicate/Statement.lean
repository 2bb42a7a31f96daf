import SqlCompose.Predicate.Further

/-!
# Statements

A predicate text is read as the end of a statement, the condition of a selection of all columns of
one table. The text may go on with further clauses, with other selections, and after a semicolon
with further statements, of which only the number matters.
-/

namespace SqlCompose.Predicate

open Reader

/-- The statement that a predicate text completes. -/
inductive Completed where
  /-- One selection, with the clauses behind its condition. -/
  | selection (condition : Term) (inner outer : List Clause)
  /-- Several selections combined, in their normal form, with the clauses behind them. -/
  | combination (text : String) (outer : List Clause)

/-- The start of the statement that a predicate text completes. -/
def beforeCondition : String := "SELECT * FROM t WHERE "

/-- The levels of nesting that a condition may have. -/
def conditionDepth : Nat := 48

/-- The statement that a predicate text completes. -/
def completedStatement (d : Dialect) : Reader Completed := do
  let lv := level d false conditionDepth
  let condition ← lv.any
  let inner ← innerClauses d lv
  let more ← many (combinedText d lv)
  let outer ← outerClauses d lv
  pure <|
    if more.isEmpty then .selection condition inner outer
    else
      .combination
        (beforeCondition ++ condition.text ++ clausesText inner ++ String.join more) outer

/-! ## Several statements -/

/-- The number of statements that follow. The text ends with a statement, with semicolons, or with
the word `END` behind a statement, after which nothing is read. The fuel bounds the statements. -/
def furtherStatements (d : Dialect) : Nat → Reader Nat
  | 0 => refuse
  | fuel + 1 => do
    let semicolons ← many (do if ← sign? ";" then pure (some ()) else pure none)
    if (← peek 0).isNone then pure 0
    else if semicolons.isEmpty then if ← sees ["END"] then pure 0 else refuse
    else
      furtherStatement d (level d false (conditionDepth + 1))
      pure ((← furtherStatements d fuel) + 1)

/-- The statement that a predicate text completes, and how many statements there are. -/
def statements (d : Dialect) : Reader (Completed × Nat) := do
  let first ← completedStatement d
  fun rest => (do pure (first, (← furtherStatements d (rest.length + 1)) + 1)) rest

end SqlCompose.Predicate
