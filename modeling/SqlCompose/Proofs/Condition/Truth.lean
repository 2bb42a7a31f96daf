import SqlCompose.Dialect.Basic
import SqlCompose.Expr.Operator
import SqlCompose.Value.Basic

/-!
# Conditions and what they evaluate to

A condition is evaluated on a row to one of three truth values: a comparison with a value that is
absent is unknown, and a test for absence never is. How two values compare that are both present is
left to the engine (`Sql.Engine`), except that equality of integers and of truth values is equality.
-/

namespace SqlCompose.Sql

/-! ## Truth values -/

/-- A truth value. -/
inductive Truth where
  | no
  | unknown
  | yes
deriving DecidableEq, Repr

namespace Truth

/-- The truth value of a test that is never unknown. -/
def ofBool (b : Bool) : Truth := if b then .yes else .no

/-- Negation leaves the unknown unknown. -/
def not : Truth → Truth
  | .no => .yes
  | .unknown => .unknown
  | .yes => .no

/-- Conjunction is the lesser of two truth values. -/
def and : Truth → Truth → Truth
  | .no, _ | _, .no => .no
  | .yes, .yes => .yes
  | _, _ => .unknown

/-- Disjunction is the greater of two truth values. -/
def or : Truth → Truth → Truth
  | .yes, _ | _, .yes => .yes
  | .no, .no => .no
  | _, _ => .unknown

/-- Whether all hold. -/
def all (ts : List Truth) : Truth := ts.foldl and .yes

/-- Whether one of several holds. -/
def any (ts : List Truth) : Truth := ts.foldl or .no

@[simp] theorem yes_and (t : Truth) : Truth.yes.and t = t := by cases t <;> rfl

@[simp] theorem all_nil : all [] = .yes := rfl

@[simp] theorem any_nil : any [] = .no := rfl

/-- A conjunction holds when both parts do. -/
theorem and_eq_yes {s t : Truth} : s.and t = .yes ↔ s = .yes ∧ t = .yes := by
  cases s <;> cases t <;> decide

/-- A disjunction holds when one part does. -/
theorem or_eq_yes {s t : Truth} : s.or t = .yes ↔ s = .yes ∨ t = .yes := by
  cases s <;> cases t <;> decide

/-- A disjunction fails when both parts do. -/
theorem or_eq_no {s t : Truth} : s.or t = .no ↔ s = .no ∧ t = .no := by
  cases s <;> cases t <;> decide

/-- A negation holds when what it negates fails. -/
theorem not_eq_yes {t : Truth} : t.not = .yes ↔ t = .no := by cases t <;> decide

/-- One of several holds if one of them does. -/
theorem any_eq_yes {ts : List Truth} : any ts = .yes ↔ .yes ∈ ts := by
  have hfold (s : Truth) : ts.foldl or s = .yes ↔ s = .yes ∨ .yes ∈ ts := by
    induction ts generalizing s with
    | nil => simp
    | cons t ts ih => rw [List.foldl_cons, ih, or_eq_yes, List.mem_cons, or_assoc, eq_comm (b := t)]
  simpa [any] using hfold .no

/-- None of several holds if every one of them does not. -/
theorem any_eq_no {ts : List Truth} : any ts = .no ↔ ∀ t ∈ ts, t = .no := by
  have hfold (s : Truth) : ts.foldl or s = .no ↔ s = .no ∧ ∀ t ∈ ts, t = .no := by
    induction ts generalizing s with
    | nil => simp
    | cons t ts ih => rw [List.foldl_cons, ih, or_eq_no, List.forall_mem_cons, and_assoc]
  simpa [any] using hfold .no

@[simp] theorem not_ofBool (b : Bool) : (ofBool b).not = ofBool !b := by cases b <;> rfl

/-- A test with an answer is not unknown. -/
theorem ofBool_ne_unknown (b : Bool) : ofBool b ≠ .unknown := by cases b <;> decide

end Truth

/-! ## Comparisons -/

/-- How an engine compares values that are present. -/
structure Engine where
  /-- Whether a comparison holds. -/
  holds : BinaryOp → Value → Value → Bool
  holds_eq_int : ∀ a b, holds .eq (.int a) (.int b) = (a == b)
  holds_eq_bool : ∀ a b, holds .eq (.bool a) (.bool b) = (a == b)

namespace Engine

variable (g : Engine)

/-- A comparison of two values, one of which may be absent. -/
def compare (op : BinaryOp) (v w : Value) : Truth :=
  if v.isNull || w.isNull then .unknown else .ofBool (g.holds op v w)

/-- A membership test is a comparison with each item. -/
def isIn (v : Value) (items : List Value) : Truth := .any (items.map (g.compare .eq v))

/-- A comparison with an absent value is unknown. -/
@[simp] theorem compare_null (op : BinaryOp) (v : Value) : g.compare op v .null = .unknown := by
  simp [compare, Value.isNull]

/-- A comparison of an absent value is unknown. -/
@[simp] theorem null_compare (op : BinaryOp) (v : Value) : g.compare op .null v = .unknown := rfl

/-- Truth values are compared as the truth values they are, whatever stands for them. -/
theorem compare_boolValue (d : Dialect) (a b : Bool) :
    g.compare .eq (d.boolValue a) (d.boolValue b) = .ofBool (a == b) := by
  have hint : ∀ a b : Bool, ((if a then 1 else 0 : Int64) == if b then 1 else 0) = (a == b) := by
    decide
  cases d <;>
    simp [compare, Dialect.boolValue, Value.isNull, g.holds_eq_int, g.holds_eq_bool, hint]

end Engine

/-- A test for absence, or for the opposite. -/
def nullTest (op : BinaryOp) (v : Value) : Truth :=
  .ofBool (if op = .eq then v.isNull else !v.isNull)

/-- A test for absence is never unknown. -/
theorem nullTest_ne_unknown (op : BinaryOp) (v : Value) : nullTest op v ≠ .unknown :=
  Truth.ofBool_ne_unknown _

/-! ## Conditions -/

/-- An operand of a comparison. -/
inductive Term where
  /-- The value of a column. -/
  | column (name : String)
  /-- The value of the parameter with an index. -/
  | param (index : Nat)
  /-- A number. -/
  | number (n : Nat)
  /-- The absent value. -/
  | null
deriving DecidableEq, Repr

/-- The value of an operand. -/
def Term.value (row : String → Value) (params : List Value) : Term → Value
  | .column name => row name
  | .param index => params.getD index .null
  | .number n => .int (Int64.ofNat n)
  | .null => .null

/-- A condition. -/
inductive Condition where
  | truth (b : Bool)
  | compare (op : BinaryOp) (x y : Term)
  | isNull (x : Term)
  | isNotNull (x : Term)
  | isIn (x : Term) (items : List Term)
  | not (c : Condition)
  | and (c₁ c₂ : Condition)
  | or (c₁ c₂ : Condition)
deriving DecidableEq, Repr

/-- What a condition evaluates to on a row. -/
def Condition.eval (g : Engine) (row : String → Value) (params : List Value) : Condition → Truth
  | .truth b => .ofBool b
  | .compare op x y => g.compare op (x.value row params) (y.value row params)
  | .isNull x => nullTest .eq (x.value row params)
  | .isNotNull x => nullTest .ne (x.value row params)
  | .isIn x items => g.isIn (x.value row params) (items.map (Term.value row params))
  | .not c => (c.eval g row params).not
  | .and c₁ c₂ => (c₁.eval g row params).and (c₂.eval g row params)
  | .or c₁ c₂ => (c₁.eval g row params).or (c₂.eval g row params)

end SqlCompose.Sql
