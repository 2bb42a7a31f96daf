import SqlCompose.Proofs.Condition.Truth

/-!
# Formulas and their values

In a formula, conditions can be operands: a comparison may compare the truth value of another one. A
formula has a value on every row, and a truth value is a value in the form that the dialect has for
it, where the unknown is the absent value. Which other values hold when they stand as conditions is
left to the engine (`Sql.Judge`).
-/

namespace SqlCompose.Sql

/-! ## Truth values as values -/

/-- An engine that also says which values hold as conditions. -/
structure Judge extends Engine where
  /-- Whether a value that is present holds. -/
  isTrue : Value → Bool
  isTrue_bool : ∀ b, isTrue (.bool b) = b
  isTrue_int : ∀ b : Bool, isTrue (.int (if b then 1 else 0)) = b

/-- The truth value of a value that stands as a condition. -/
def Judge.truthOf (j : Judge) (v : Value) : Truth :=
  if v.isNull then .unknown else .ofBool (j.isTrue v)

/-- A truth value as a value of the dialect. -/
def Truth.toValue (d : Dialect) : Truth → Value
  | .no => d.boolValue false
  | .unknown => .null
  | .yes => d.boolValue true

/-- A known truth value is the value of the dialect for it. -/
@[simp] theorem Truth.toValue_ofBool (d : Dialect) (b : Bool) :
    (Truth.ofBool b).toValue d = d.boolValue b := by
  cases b <;> rfl

/-- The values of a dialect for truth values hold as they should. -/
@[simp] theorem truthOf_boolValue (j : Judge) (d : Dialect) (b : Bool) :
    j.truthOf (d.boolValue b) = .ofBool b := by
  have hnull : (d.boolValue b).isNull = false := by cases d <;> rfl
  have htrue : j.isTrue (d.boolValue b) = b := by
    cases d <;> first | exact j.isTrue_bool b | exact j.isTrue_int b
  rw [Judge.truthOf, hnull, htrue]
  rfl

/-- A truth value is read back from the value of the dialect for it. -/
@[simp] theorem truthOf_toValue (j : Judge) (d : Dialect) (t : Truth) :
    j.truthOf (t.toValue d) = t := by
  cases t with
  | unknown => rfl
  | no => exact truthOf_boolValue j d false
  | yes => exact truthOf_boolValue j d true

/-! ## Formulas -/

/-- A formula over operands. -/
inductive Formula (α : Type) where
  | operand (x : α)
  | number (n : Nat)
  | null
  | truth (b : Bool)
  | compare (op : BinaryOp) (x y : Formula α)
  /-- A test for absence, or for the opposite. -/
  | isNull (negated : Bool) (x : Formula α)
  | isIn (x : Formula α) (items : List α)
  | not (x : Formula α)
  | and (x y : Formula α)
  | or (x y : Formula α)
deriving DecidableEq, Repr

namespace Formula

variable {α β : Type}

/-- A formula over other operands. -/
def map (f : α → β) : Formula α → Formula β
  | .operand x => .operand (f x)
  | .number n => .number n
  | .null => .null
  | .truth b => .truth b
  | .compare op x y => .compare op (x.map f) (y.map f)
  | .isNull negated x => .isNull negated (x.map f)
  | .isIn x items => .isIn (x.map f) (items.map f)
  | .not x => .not (x.map f)
  | .and x y => .and (x.map f) (y.map f)
  | .or x y => .or (x.map f) (y.map f)

/-- The value of a formula over values. -/
def value (j : Judge) (d : Dialect) : Formula Value → Value
  | .operand v => v
  | .number n => .int (Int64.ofNat n)
  | .null => .null
  | .truth b => d.boolValue b
  | .compare op x y => (j.compare op (x.value j d) (y.value j d)).toValue d
  | .isNull negated x => (nullTest (if negated then .ne else .eq) (x.value j d)).toValue d
  | .isIn x items => (j.isIn (x.value j d) items).toValue d
  | .not x => (j.truthOf (x.value j d)).not.toValue d
  | .and x y => ((j.truthOf (x.value j d)).and (j.truthOf (y.value j d))).toValue d
  | .or x y => ((j.truthOf (x.value j d)).or (j.truthOf (y.value j d))).toValue d

/-- The truth value of a formula on a row, with parameters. -/
def truthOn (j : Judge) (d : Dialect) (row : String → Value) (params : List Value)
    (k : Formula Term) : Truth :=
  j.truthOf ((k.map (Term.value row params)).value j d)

end Formula

end SqlCompose.Sql
