import SqlCompose.Proofs.Condition.Truth
import SqlCompose.Query.Plan

/-!
# What predicates mean

The predicates of a query are built from columns, values and comparisons with connectives; any part
may stand under a change of type or under a function of the row. A predicate has a truth value on
every row: a comparison for equality with a null operand is a test for absence, and every other
comparison is the engine's. A null operand under a function is one, too; `Filter.hidesNull` says
where it is easily overlooked.
-/

namespace SqlCompose.Sql

/-! ## Operands -/

/-- An operand of a comparison in a query. -/
inductive Operand where
  | column (name : String)
  | constant (v : Value)
  | captured (c : Captured)
  | convert (x : Operand)
  | lambda (param : String) (x : Operand)

/-- The value captured; where it cannot be evaluated, a query is not compiled. -/
def capturedValue (c : Captured) : Value := c.evaluate.toOption.getD .null

namespace Operand

/-- The expression of an operand. -/
def toExpr : Operand → Expr
  | .column name => .column name
  | .constant v => .constant v
  | .captured c => .captured c
  | .convert x => .convert x.toExpr
  | .lambda param x => .lambda param x.toExpr

/-- The columns that an operand names. -/
def names : Operand → List String
  | .column name => [name]
  | .constant _ | .captured _ => []
  | .convert x | .lambda _ x => x.names

/-- Whether an operand is null. -/
def isNull : Operand → Bool
  | .column _ => false
  | .constant v => v.isNull
  | .captured c => (capturedValue c).isNull
  | .convert x | .lambda _ x => x.isNull

/-- Whether an operand is null and no function stands around it. -/
def isBareNull : Operand → Bool
  | .column _ | .lambda _ _ => false
  | .constant v => v.isNull
  | .captured c => (capturedValue c).isNull
  | .convert x => x.isBareNull

/-- A bare null operand is null. -/
theorem isNull_of_isBareNull {x : Operand} (h : x.isBareNull = true) : x.isNull = true := by
  induction x with
  | column | lambda => cases h
  | constant | captured => exact h
  | convert x ih => exact ih h

end Operand

/-! ## Rows -/

/-- A row of an entity: what it holds in the columns of the database. In a column of truth values
there is a truth value or none. -/
structure Record (e : Entity) where
  value : String → Value
  bool : ∀ {name column}, e.isBoolColumn name = true → e.columnName name = .ok column →
    value column = .null ∨ ∃ b, value column = .bool b

variable {e : Entity}

/-- What a row holds in the column of a name. -/
def Record.get (row : Record e) (name : String) : Value :=
  match e.columnName name with
  | .ok column => row.value column
  | .error _ => .null

/-- What a row holds under a name is what it holds in the column of that name. -/
theorem Record.get_of_columnName (row : Record e) {name column : String}
    (h : e.columnName name = .ok column) : row.get name = row.value column := by
  simp [Record.get, h]

/-- What the database holds in a column, as the dialect represents it. -/
def Record.stored (row : Record e) (d : Dialect) (column : String) : Value :=
  d.param (row.value column)

/-- The value of an operand on a row. -/
def Operand.value (row : Record e) : Operand → Value
  | .column name => row.get name
  | .constant v => v
  | .captured c => capturedValue c
  | .convert x | .lambda _ x => x.value row

/-- A null operand has the null value on every row. -/
theorem Operand.value_of_isNull {x : Operand} (h : x.isNull = true) (row : Record e) :
    x.value row = .null := by
  induction x with
  | column => cases h
  | constant | captured => exact Value.isNull_iff.mp h
  | convert _ ih | lambda _ _ ih => exact ih h

/-- The truth value that a value is; anything else is unknown. -/
def Truth.ofValue : Value → Truth
  | .bool b => .ofBool b
  | _ => .unknown

/-- A test of a column for a truth value says whether it holds that truth value. -/
theorem compare_boolColumn (g : Engine) (d : Dialect) (row : Record e) {name column : String}
    (h : e.isBoolColumn name = true) (hcolumn : e.columnName name = .ok column) (b : Bool) :
    g.compare .eq (row.stored d column) (d.boolValue b) =
      if b then .ofValue (row.get name) else (Truth.ofValue (row.get name)).not := by
  rw [row.get_of_columnName hcolumn, Record.stored]
  rcases row.bool h hcolumn with hnull | ⟨a, ha⟩
  · rw [hnull]
    cases b <;> rfl
  · rw [ha, Dialect.param, g.compare_boolValue]
    cases a <;> cases b <;> rfl

/-! ## Predicates -/

/-- A predicate of a query. -/
inductive Filter (e : Entity) where
  /-- A column of truth values. -/
  | column (name : String) (h : e.isBoolColumn name = true)
  | constant (b : Bool)
  /-- A captured truth value. -/
  | captured (c : Captured) (b : Bool) (h : c.evaluate = .ok (.bool b))
  | compare (op : BinaryOp) (h : op.isLogical = false) (x y : Operand)
  | and (p q : Filter e)
  | or (p q : Filter e)
  | not (p : Filter e)
  /-- Whether a collection holds the value of an operand. -/
  | isIn (x : Operand) (collection : Expr)
  | convert (p : Filter e)
  | lambda (param : String) (p : Filter e)

/-- The items of a collection; where it is none, a query is not compiled. -/
def itemValues (collection : Expr) : List Value := collection.items.toOption.getD []

/-- A comparison of operands, of which the left one counts as null or not. -/
def comparisonTruth (g : Engine) (d : Dialect) (row : Record e) (leftNull : Bool) (op : BinaryOp)
    (x y : Operand) : Truth :=
  if op.isEquality && y.isNull then nullTest op (x.value row)
  else if op.isEquality && leftNull then nullTest op (y.value row)
  else g.compare op (d.param (x.value row)) (d.param (y.value row))

namespace Filter

/-- The expression of a predicate. -/
def toExpr : Filter e → Expr
  | .column name _ => .column name
  | .constant b => .constant (.bool b)
  | .captured c _ _ => .captured c
  | .compare op _ x y => .binary op x.toExpr y.toExpr
  | .and p q => .binary .and p.toExpr q.toExpr
  | .or p q => .binary .or p.toExpr q.toExpr
  | .not p => .negate p.toExpr
  | .isIn x collection => .isIn x.toExpr collection
  | .convert p => .convert p.toExpr
  | .lambda param p => .lambda param p.toExpr

/-- The columns that a predicate names. -/
def names : Filter e → List String
  | .column name _ => [name]
  | .constant _ | .captured _ _ _ => []
  | .compare _ _ x y => x.names ++ y.names
  | .and p q | .or p q => p.names ++ q.names
  | .not p | .convert p | .lambda _ p => p.names
  | .isIn x _ => x.names

/-- The truth value of a predicate on a row, where some operands on the left count as null. -/
def eval (leftNull : Operand → Bool) (g : Engine) (d : Dialect) (row : Record e) :
    Filter e → Truth
  | .column name _ => .ofValue (row.get name)
  | .constant b | .captured _ b _ => .ofBool b
  | .compare op _ x y => comparisonTruth g d row (leftNull x) op x y
  | .and p q => (p.eval leftNull g d row).and (q.eval leftNull g d row)
  | .or p q => (p.eval leftNull g d row).or (q.eval leftNull g d row)
  | .not p => (p.eval leftNull g d row).not
  | .isIn x collection =>
    if (itemValues collection).isEmpty then .no
    else g.isIn (d.param (x.value row)) ((itemValues collection).map d.param)
  | .convert p | .lambda _ p => p.eval leftNull g d row

/-- The truth value of a predicate on a row. -/
def truth (g : Engine) (d : Dialect) (row : Record e) (p : Filter e) : Truth :=
  p.eval Operand.isNull g d row

/-- The truth value of a predicate if a null operand under a function is overlooked on the left. -/
def bareTruth (g : Engine) (d : Dialect) (row : Record e) (p : Filter e) : Truth :=
  p.eval Operand.isBareNull g d row

/-- Whether a predicate compares a null operand under a function, on the left, for equality with
an operand that is not null. -/
def hidesNull : Filter e → Bool
  | .column _ _ | .constant _ | .captured _ _ _ | .isIn _ _ => false
  | .compare op _ x y => op.isEquality && x.isNull && !x.isBareNull && !y.isNull
  | .and p q | .or p q => p.hidesNull || q.hidesNull
  | .not p | .convert p | .lambda _ p => p.hidesNull

/-- Nothing is overlooked in a predicate that hides no null operand. -/
theorem bareTruth_eq_truth {p : Filter e} (h : p.hidesNull = false) (g : Engine) (d : Dialect)
    (row : Record e) : p.bareTruth g d row = p.truth g d row := by
  unfold bareTruth truth
  induction p with
  | column | constant | captured | isIn => rfl
  | compare op hop x y =>
    unfold eval comparisonTruth
    by_cases hy : op.isEquality && y.isNull
    · rw [if_pos hy, if_pos hy]
    · have hsame : (op.isEquality && x.isBareNull) = (op.isEquality && x.isNull) := by
        cases hbare : x.isBareNull with
        | true => rw [Operand.isNull_of_isBareNull hbare]
        | false => simp_all [hidesNull]
      rw [hsame]
  | and p q ihp ihq | or p q ihp ihq =>
    simp only [hidesNull, Bool.or_eq_false_iff] at h
    simp only [eval, ihp h.1, ihq h.2]
  | not p ih | convert p ih | lambda _ p ih => simp only [eval, ih h]

/-- A comparison that hides a null operand is unknown if that is overlooked, and never means that. -/
theorem bareTruth_compare {op : BinaryOp} {hop : op.isLogical = false} {x y : Operand}
    (h : (compare (e := e) op hop x y).hidesNull = true) (g : Engine) (d : Dialect)
    (row : Record e) :
    (compare op hop x y).bareTruth g d row = .unknown ∧
      (compare op hop x y).truth g d row ≠ .unknown := by
  simp only [hidesNull, Bool.and_eq_true, Bool.not_eq_true'] at h
  obtain ⟨⟨⟨heq, hx⟩, hbare⟩, hy⟩ := h
  constructor
  · simp [bareTruth, eval, comparisonTruth, hy, hbare, Operand.value_of_isNull hx, Dialect.param]
  · simpa [truth, eval, comparisonTruth, hy, heq, hx] using nullTest_ne_unknown op _

end Filter

end SqlCompose.Sql
