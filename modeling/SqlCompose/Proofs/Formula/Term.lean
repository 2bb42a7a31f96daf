import SqlCompose.Predicate.Reading
import SqlCompose.Proofs.Formula.Assertion

/-!
# Terms and their values

A term of a predicate text has a value on every row (`Predicate.Term.value`), for any dialect and
any engine. It also becomes an assertion, which forgets the parentheses and tests for a truth value
by an equality (`Predicate.Term.assertion`); its expression is that of the assertion.
-/

namespace SqlCompose.Predicate

open Sql (Judge Truth Assertion Record nullTest)

variable {e : Entity}

/-! ## Terms as assertions -/

/-- The value that a literal stands for; where there is none, a term is not accepted. -/
def Literal.constant (l : Literal) : Value := l.value.toOption.getD .null

/-- The value that the minus sign and a number stand for. -/
def negativeConstant (digits : String) : Value := (numberValue ("-" ++ digits)).toOption.getD .null

/-- The value of an item of a list; where there is none, a term is not accepted. -/
def Term.itemConstant (t : Term) : Value := t.itemValue.toOption.getD .null

/-- The name that the path of a column ends with. -/
def columnOf (path : List Name) : String := (path.getLast?.map Name.text).getD ""

namespace Term

/-- The assertion that a term becomes; terms that are not accepted become the null constant. -/
def assertion : Term → Assertion
  | .column path => .column (columnOf path)
  | .literal l => .value l.constant
  | .group t => t.assertion
  | .binary (.known op) left right => .binary op left.assertion right.assertion
  | .unary .not t => .not t.assertion
  | .unary .minus (.literal (.number digits _)) => .value (negativeConstant digits)
  | .isNull negated t => .binary (if negated then .ne else .eq) t.assertion (.value .null)
  | .isTruth b t => .binary .eq t.assertion (.value (.bool b))
  | .inList negated t items =>
    let test := .isIn t.assertion (items.map itemConstant)
    if negated then .not test else test
  | _ => .value .null

/-- The columns that a term names. -/
def names (t : Term) : List String := t.assertion.names

/-- Whether a term is the null literal, possibly in parentheses. -/
def isNullLiteral : Term → Bool
  | .literal .null => true
  | .group t => t.isNullLiteral
  | _ => false

/-! ## The value of a term -/

/-- The value of a comparison or a connective. A comparison for equality with the null literal is a
test for absence. -/
def binaryValue (j : Judge) (d : Dialect) (op : BinaryOp) (leftNull rightNull : Bool)
    (v w : Value) : Value :=
  match op with
  | .and => ((j.truthOf v).and (j.truthOf w)).toValue d
  | .or => ((j.truthOf v).or (j.truthOf w)).toValue d
  | op =>
    if op.isEquality && rightNull then (nullTest op v).toValue d
    else if op.isEquality && leftNull then (nullTest op w).toValue d
    else (j.compare op v w).toValue d

/-- The value of a term on a row. A test for a truth value is never unknown. -/
def value (j : Judge) (d : Dialect) (row : Record e) : Term → Value
  | .column path => d.param (row.get (columnOf path))
  | .literal l => d.param l.constant
  | .group t => t.value j d row
  | .binary (.known op) left right =>
    binaryValue j d op left.isNullLiteral right.isNullLiteral (left.value j d row)
      (right.value j d row)
  | .unary .not t => (j.truthOf (t.value j d row)).not.toValue d
  | .unary .minus (.literal (.number digits _)) => d.param (negativeConstant digits)
  | .isNull negated t => (nullTest (if negated then .ne else .eq) (t.value j d row)).toValue d
  | .isTruth b t => d.boolValue (j.truthOf (t.value j d row) == .ofBool b)
  | .inList negated t items =>
    let test := j.isIn (t.value j d row) (items.map fun item => d.param item.itemConstant)
    (if negated then test.not else test).toValue d
  | _ => .null

/-- The truth value of a term on a row. -/
def truth (j : Judge) (d : Dialect) (row : Record e) (t : Term) : Truth :=
  j.truthOf (t.value j d row)

/-- Whether on a row all tests for a truth value are tests of truth values. -/
def TestsTruths (j : Judge) (d : Dialect) (row : Record e) : Term → Prop
  | .group t | .unary .not t | .isNull _ t | .inList _ t _ => t.TestsTruths j d row
  | .binary (.known _) left right => left.TestsTruths j d row ∧ right.TestsTruths j d row
  | .isTruth _ t => t.TestsTruths j d row ∧ ∃ b, t.value j d row = d.boolValue b
  | _ => True

/-! ## Accepted terms -/

/-- A term that query expressions have. -/
inductive Accepted : Term → Prop
  | column (path : List Name) : Accepted (.column path)
  | literal {l : Literal} {v : Value} (h : l.value = .ok v) : Accepted (.literal l)
  | negative {digits : String} {v : Value} (long : Bool) (h : numberValue ("-" ++ digits) = .ok v) :
    Accepted (.unary .minus (.literal (.number digits long)))
  | group {t : Term} (h : Accepted t) : Accepted (.group t)
  | binary {left right : Term} (op : BinaryOp) (hleft : Accepted left) (hright : Accepted right) :
    Accepted (.binary (.known op) left right)
  | not {t : Term} (h : Accepted t) : Accepted (.unary .not t)
  | isNull {t : Term} (negated : Bool) (h : Accepted t) : Accepted (.isNull negated t)
  | isTruth {t : Term} (b : Bool) (h : Accepted t) : Accepted (.isTruth b t)
  | inList {t : Term} (negated : Bool) (h : Accepted t) (items : List Term) :
    Accepted (.inList negated t items)

/-- A literal that has a value stands for it. -/
theorem constant_of_value {l : Literal} {v : Value} (h : l.value = .ok v) : l.constant = v := by
  simp [Literal.constant, h, Except.toOption]

/-- A negative number that has a value stands for it. -/
theorem negativeConstant_of_value {digits : String} {v : Value}
    (h : numberValue ("-" ++ digits) = .ok v) : negativeConstant digits = v := by
  simp [negativeConstant, h, Except.toOption]

/-- The items of a list that is accepted are its constants. -/
theorem map_itemConstant {items : List Term} {values : List Value}
    (h : items.mapM itemValue = .ok values) : values = items.map itemConstant := by
  induction items generalizing values with
  | nil =>
    cases h
    rfl
  | cons t items ih =>
    rw [List.mapM_cons] at h
    obtain ⟨v, hv, h⟩ := bind_eq_ok.mp h
    obtain ⟨vs, hvs, h⟩ := bind_eq_ok.mp h
    cases h
    have ht : t.itemConstant = v := by simp [itemConstant, hv, Except.toOption]
    rw [List.map_cons, ht, ih hvs]

/-- A term with an expression is accepted, and the expression is that of its assertion. -/
theorem accepted_of_toExpr {t : Term} {x : Expr} (h : t.toExpr = .ok x) :
    Accepted t ∧ x = t.assertion.toExpr := by
  induction t using Term.toExpr.induct generalizing x with
  | case1 path =>
    cases h
    exact ⟨.column path, rfl⟩
  | case2 l =>
    obtain ⟨v, hv, h⟩ := bind_eq_ok.mp h
    cases h
    refine ⟨.literal hv, ?_⟩
    rw [assertion, constant_of_value hv]
    rfl
  | case3 t ih => exact ⟨.group (ih h).1, (ih h).2⟩
  | case4 op left right ihl ihr =>
    obtain ⟨l, hl, h⟩ := bind_eq_ok.mp h
    obtain ⟨r, hr, h⟩ := bind_eq_ok.mp h
    obtain ⟨o, ho, h⟩ := bind_eq_ok.mp h
    cases h
    cases op with
    | foreign text => cases ho
    | known op =>
      cases ho
      obtain ⟨hleft, rfl⟩ := ihl hl
      obtain ⟨hright, rfl⟩ := ihr hr
      exact ⟨.binary o hleft hright, rfl⟩
  | case5 t ih =>
    obtain ⟨y, hy, h⟩ := bind_eq_ok.mp h
    cases h
    obtain ⟨ht, rfl⟩ := ih hy
    exact ⟨.not ht, rfl⟩
  | case6 digits long =>
    obtain ⟨v, hv, h⟩ := bind_eq_ok.mp h
    cases h
    refine ⟨.negative long hv, ?_⟩
    rw [assertion, negativeConstant_of_value hv]
    rfl
  | case7 op t hnot hminus =>
    cases op with
    | not => exact (hnot rfl).elim
    | foreign text => cases h
    | minus =>
      cases t with
      | literal l =>
        cases l with
        | number digits long => exact (hminus digits long rfl rfl).elim
        | _ => cases h
      | _ => cases h
  | case8 | case12 | case13 => cases h
  | case9 negated t ih =>
    obtain ⟨y, hy, h⟩ := bind_eq_ok.mp h
    cases h
    obtain ⟨ht, rfl⟩ := ih hy
    exact ⟨.isNull negated ht, rfl⟩
  | case10 b t ih =>
    obtain ⟨y, hy, h⟩ := bind_eq_ok.mp h
    cases h
    obtain ⟨ht, rfl⟩ := ih hy
    exact ⟨.isTruth b ht, rfl⟩
  | case11 negated t items ih =>
    obtain ⟨values, hvalues, h⟩ := bind_eq_ok.mp h
    obtain ⟨y, hy, h⟩ := bind_eq_ok.mp h
    cases h
    obtain ⟨ht, rfl⟩ := ih hy
    refine ⟨.inList negated ht items, ?_⟩
    rw [map_itemConstant hvalues]
    cases negated <;> rfl

/-- A number is not the absent value. -/
theorem numberValue_isNull {digits : String} {v : Value} (h : numberValue digits = .ok v) :
    v.isNull = false := by
  unfold numberValue at h
  split at h
  · cases h; rfl
  · split at h <;> cases h
    rfl

/-- An accepted term becomes the null constant if it is the null literal. -/
theorem isNull_assertion {t : Term} (h : Accepted t) : t.assertion.isNull = t.isNullLiteral := by
  induction h with
  | @literal l v hv =>
    have hconstant : (assertion (.literal l)).isNull = v.isNull := by
      rw [assertion, constant_of_value hv]
      rfl
    rw [hconstant]
    cases l with
    | null | bool => cases hv; rfl
    | number digits long => exact numberValue_isNull hv
    | quoted form content => cases form <;> cases hv <;> rfl
    | placeholder => cases hv
  | negative _ hv =>
    rw [assertion, negativeConstant_of_value hv]
    exact numberValue_isNull hv
  | group _ ih => exact ih
  | inList negated => cases negated <;> rfl
  | _ => rfl

end Term

end SqlCompose.Predicate
