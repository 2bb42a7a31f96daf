import SqlCompose.Proofs.Formula.Regrouping

/-!
# Formulas that are conditions

A formula is a condition if its connectives and negations stand between tests, and not between
operands that state no truth value. What a comparison compares is of no account. A layout is read as
a condition if and only if it is one as it is written, however its comparisons are put together
(`Sql.Layout.isCondition_reading`).
-/

namespace SqlCompose.Sql

variable {α : Type}

namespace Formula

/-- Whether a formula states a truth value, and so does each part of its connectives. -/
def isCondition : Formula α → Bool
  | .operand _ | .number _ | .null => false
  | .truth _ | .compare _ _ _ | .isNull _ _ | .isIn _ _ => true
  | .not x => x.isCondition
  | .and x y | .or x y => x.isCondition && y.isCondition

end Formula

/-- Whether what waits makes a comparison. -/
def Waiting.isCompare : Waiting α → Bool
  | .not => false
  | .compare _ _ => true

namespace Level

/-- A formula that waits for another one is a condition if a comparison waits, or the other one is a
condition. -/
theorem isCondition_closeWith (ws : List (Waiting α)) (x : Formula α) :
    (closeWith ws x).isCondition = (ws.any Waiting.isCompare || x.isCondition) := by
  induction ws generalizing x with
  | nil => rfl
  | cons w ws ih =>
    cases w with
    | not => exact (ih (.not x)).trans (by simp [Waiting.isCompare, Formula.isCondition])
    | compare y op =>
      exact (ih (.compare op y x)).trans (by simp [Waiting.isCompare, Formula.isCondition])

/-- To settle a formula is only the first step of putting it together with what waits. -/
theorem close_settle (ws : List (Waiting α)) (x : Formula α) :
    (settle ws x).close = closeWith ws x := by
  cases ws with
  | nil => rfl
  | cons w ws => cases w <;> rfl

/-- Settling an operand makes a condition where a comparison waits, and keeps one. -/
theorem isCondition_settle (ws : List (Waiting α)) (x : Formula α) :
    (settle ws x).close.isCondition = (ws.any Waiting.isCompare || x.isCondition) := by
  rw [close_settle, isCondition_closeWith]

end Level

/-- Whether what is read at one depth is a condition depends on whether the last part is. -/
theorem Nesting.isCondition_formula (n : Nesting) {x y : Formula Term}
    (h : x.isCondition = y.isCondition) :
    (n.formula x).isCondition = (n.formula y).isCondition := by
  have hlast : (Level.closeWith n.waiting x).isCondition =
      (Level.closeWith n.waiting y).isCondition := by
    rw [Level.isCondition_closeWith, Level.isCondition_closeWith, h]
  have hconjunction : (n.conjunction x).isCondition = (n.conjunction y).isCondition := by
    unfold conjunction
    cases n.conjuncts <;> simp [Formula.isCondition, hlast]
  unfold formula
  cases n.disjuncts <;> simp [Formula.isCondition, hconjunction]

namespace Layout

/-- Whether a layout states a truth value, and so does each part of its connectives. -/
def isCondition : Layout α → Bool
  | .operand _ | .null => false
  | .truth _ | .isIn _ _ => true
  | .not a => a.isCondition
  | .binary op a b => !op.isLogical || a.isCondition && b.isCondition

variable {d : Dialect}

/-- Settling the null literal makes a condition where a comparison waits. -/
theorem isCondition_settleNull (ws : List (Waiting α)) :
    (settleNull ws).close.isCondition = ws.any Waiting.isCompare := by
  have hsettle : (Level.settle ws .null).close.isCondition = ws.any Waiting.isCompare := by
    rw [Level.isCondition_settle]
    exact Bool.or_false _
  cases ws with
  | nil => rfl
  | cons w ws =>
    cases w with
    | not => exact hsettle
    | compare y op =>
      cases op with
      | eq | ne =>
        simp [settleNull, Level.close, Level.isCondition_closeWith, Formula.isCondition,
          Waiting.isCompare]
      | _ => exact hsettle

/-- The predicate that holds always, or never, is a condition behind whatever waits. -/
theorem isCondition_settleTruth (b : Bool) (ws : List (Waiting α)) :
    (settleTruth d b ws).close.isCondition = true := by
  have hcompare (ws : List (Waiting α)) (x y : Formula α) :
      (Level.closeWith ws (.compare .eq x y)).isCondition = true := by
    simp [Level.isCondition_closeWith, Formula.isCondition]
  cases d with
  | postgres => simp [settleTruth, Level.isCondition_settle, Formula.isCondition]
  | _ => exact hcompare _ _ _

/-- A connective is a condition when both of its parts are. -/
theorem isCondition_connect (op : BinaryOp) (x y : Formula α) :
    (connect op x y).isCondition = (x.isCondition && y.isCondition) := by
  unfold connect
  split <;> rfl

/-- Behind what waits, a layout is read as a condition if a comparison waits or if it is one. The
sign of a comparison waits in front of its right operand. -/
theorem isCondition_regroup (w : Layout α) (ws : List (Waiting α)) :
    (w.regroup d ws).close.isCondition = (ws.any Waiting.isCompare || w.isCondition) := by
  induction w generalizing ws with
  | operand x => exact Level.isCondition_settle ws (.operand x)
  | null =>
    rw [regroup, isCondition_settleNull]
    exact (Bool.or_false _).symm
  | truth b =>
    rw [regroup, isCondition_settleTruth]
    exact (Bool.or_true _).symm
  | isIn a items ih =>
    simp [regroup, Level.close, Level.isCondition_closeWith, Formula.isCondition, isCondition]
  | not a ih =>
    have hbody := ih []
    rw [regroup, Level.close, Level.isCondition_closeWith, hbody]
    simp [Waiting.isCompare, isCondition]
  | binary op a b iha ihb =>
    rw [regroup]
    cases hop : op.isLogical with
    | true =>
      have ha := iha []
      have hb := ihb []
      rw [if_pos rfl, Level.isCondition_settle, isCondition_connect, ha, hb]
      simp [isCondition, hop]
    | false =>
      have hright := ihb (.compare (a.regroup d ws).last op :: (a.regroup d ws).waiting)
      rw [if_neg Bool.false_ne_true, hright]
      simp [Waiting.isCompare, isCondition, hop]

/-- A layout is read as a condition just when it is one. -/
theorem isCondition_reading (w : Layout α) : (w.reading d).isCondition = w.isCondition :=
  isCondition_regroup w []

end Layout

end SqlCompose.Sql
