import SqlCompose.Proofs.Query.Walk

/-!
# Outlines of expressions

The outline of an expression is the expression with a fixed scalar of its variant in the place of
every scalar: what a program binds is forgotten, while columns, operators, row counts, truth
values, nulls and the lengths of lists stay. A walk over the outline fills the outline of the
draft (`Query.visit_outline`), so expressions with the same outline have the same tokens, and a
walk over one of them fails exactly as it does over the other.
-/

namespace SqlCompose

/-! ## Outlines -/

namespace Value

/-- A date that stands for all dates. -/
def someDate : Calendar.Date := ⟨1, 1, 1, by decide⟩

/-- A moment that stands for all moments. -/
def someMoment : Calendar.DateTime := ⟨someDate, ⟨0, 0, 0, 0, by decide⟩⟩

mutual

/-- A value with a fixed scalar of its variant in the place of every scalar. -/
def outline : Value → Value
  | .null => .null
  | .bool b => .bool b
  | .int _ => .int 0
  | .float _ => .float ⟨0⟩
  | .text _ => .text ""
  | .bytes _ => .bytes []
  | .date _ => .date someDate
  | .dateTime _ => .dateTime someMoment
  | .timestamp _ => .timestamp someMoment
  | .json _ => .json .null
  | .list items => .list (outlineItems items)
  | .record fields => .record (outlineFields fields)

/-- The items of a list, outlined. -/
def outlineItems : List Value → List Value
  | [] => []
  | v :: items => v.outline :: outlineItems items

/-- The fields of a record, outlined. -/
def outlineFields : List (String × Value) → List (String × Value)
  | [] => []
  | (name, v) :: fields => (name, v.outline) :: outlineFields fields

end

@[simp] theorem outlineItems_eq_map (items : List Value) : outlineItems items = items.map outline := by
  induction items with
  | nil => rfl
  | cons v items ih => rw [outlineItems, ih, List.map_cons]

/-- An outline is null just when the value is. -/
@[simp] theorem isNull_outline (v : Value) : v.outline.isNull = v.isNull := by
  cases v <;> simp [outline, isNull]

/-- An outline is a scalar just when the value is. -/
@[simp] theorem isScalar_outline (v : Value) : v.outline.isScalar = v.isScalar := by
  cases v <;> simp [outline, isScalar]

/-- An outline has the type of the value. -/
@[simp] theorem typeName_outline (v : Value) : v.outline.typeName = v.typeName := by
  cases v <;> simp [outline, typeName]

end Value

/-- A captured value with what it evaluates to outlined. -/
def Captured.outline (c : Captured) : Captured :=
  match c.evaluate with
  | .ok v => .ofValue v.outline
  | .error _ => c

/-- The outline of a captured value evaluates to the outline of what it evaluates to. -/
theorem Captured.evaluate_outline (c : Captured) :
    c.outline.evaluate = c.evaluate.map Value.outline := by
  unfold outline
  cases h : c.evaluate with
  | ok v => rfl
  | error fault => exact h

/-- Whether an argument of a step is a row count. -/
def Operator.isCount (op : Operator) : Expr → Bool
  | .constant (.int _) => op == .take || op == .skip
  | _ => false

/-- Only two steps have row counts. -/
theorem Operator.isCount_eq_false {op : Operator} (ht : op ≠ .take) (hs : op ≠ .skip) (x : Expr) :
    op.isCount x = false := by
  unfold isCount
  split <;> simp [ht, hs]

namespace Expr

mutual

/-- An expression with its scalars outlined, row counts excepted. -/
def outline : Expr → Expr
  | .source => .source
  | .constant v => .constant v.outline
  | .column name => .column name
  | .captured c => .captured c.outline
  | .binary op left right => .binary op left.outline right.outline
  | .unary op operand => .unary op operand.outline
  | .call op args => .call op (outlineArgs op args)
  | .lambda name body => .lambda name body.outline
  | .param name => .param name
  | .construct members => .construct (outlineAll members)

/-- The arguments of a step, outlined; a row count stands behind the query that is extended. -/
def outlineArgs (op : Operator) : List Expr → List Expr
  | [] => []
  | [src] => [src.outline]
  | src :: arg :: rest =>
    src.outline :: (if op.isCount arg then arg else arg.outline) :: outlineAll rest

/-- Several expressions, outlined. -/
def outlineAll : List Expr → List Expr
  | [] => []
  | x :: xs => x.outline :: outlineAll xs

end

end Expr

/-- A draft with its values outlined. -/
def Draft.outline (d : Draft) : Draft := { d with values := d.values.map Value.outline }

/-! ## What an outline keeps -/

namespace Entity

variable {e : Entity}

/-- An outline names the same column. -/
theorem member_outline (x : Expr) : e.member x.outline = e.member x := by
  fun_induction e.member x with
  | case1 name body ih => simpa [Expr.outline, member] using ih
  | case2 operand ih => simpa [Expr.outline, member] using ih
  | case3 name => rfl
  | case4 x hlambda hconvert hcolumn =>
    cases x with
    | lambda name body => exact absurd rfl (hlambda name body)
    | column name => exact absurd rfl (hcolumn name)
    | unary op operand =>
      cases op with
      | convert => exact absurd rfl (hconvert operand)
      | not => rfl
    | _ => rfl

/-- The outlines of several expressions name the same columns. -/
theorem mapM_member_outlineAll (xs : List Expr) :
    (Expr.outlineAll xs).mapM e.member = xs.mapM e.member := by
  induction xs with
  | nil => rfl
  | cons x xs ih => simp only [Expr.outlineAll, List.mapM_cons, member_outline, ih]

/-- An outline has the same projection. -/
theorem projection_outline (x : Expr) : e.projection x.outline = e.projection x := by
  have hunary (op : UnaryOp) (operand : Expr) :
      e.member (.unary op operand.outline) = e.member (.unary op operand) :=
    member_outline (.unary op operand)
  have hmembers (x : Expr) (xs : List Expr) :
      (x.outline :: Expr.outlineAll xs).mapM e.member = (x :: xs).mapM e.member :=
    mapM_member_outlineAll (x :: xs)
  cases x with
  | lambda name body =>
    cases body with
    | construct members =>
      cases members <;> simp only [Expr.outline, Expr.outlineAll, projection, hmembers]
    | param => rfl
    | _ => simp only [Expr.outline, projection, hunary]
  | construct members =>
    cases members <;> simp only [Expr.outline, Expr.outlineAll, projection, hmembers]
  | param => rfl
  | _ => simp only [Expr.outline, projection, hunary]

end Entity

namespace Expr

/-- An outline is null just when the expression is. -/
theorem isNull_outline (x : Expr) : x.outline.isNull = x.isNull := by
  fun_induction Expr.isNull x with
  | case1 v => simp [outline, isNull]
  | case2 c => 
    simp only [outline, isNull, Captured.evaluate_outline]
    cases c.evaluate <;> simp [Except.map, bind, Except.bind]
  | case3 operand ih => simpa [outline, isNull] using ih
  | case4 x hconstant hcaptured hconvert =>
    cases x with
    | constant v => exact absurd rfl (hconstant v)
    | captured c => exact absurd rfl (hcaptured c)
    | unary op operand =>
      cases op with
      | convert => exact absurd rfl (hconvert operand)
      | not => rfl
    | _ => rfl

/-- A null stands on the same side of an outline. -/
theorem nullComesFirst_outline (op : BinaryOp) (left right : Expr) :
    nullComesFirst op left.outline right.outline = nullComesFirst op left right := by
  simp only [nullComesFirst, isNull_outline]

/-- The items of a value. -/
theorem items_constant_outline (v : Value) :
    (Expr.constant v.outline).items = (Expr.constant v).items.map (List.map Value.outline) := by
  cases v <;> simp [items, Value.outline, Value.typeName, bind, Except.bind, Except.map]

/-- The items of an outline are the outlines of the items. -/
theorem items_outline (x : Expr) : x.outline.items = x.items.map (List.map Value.outline) := by
  cases x with
  | constant v => exact items_constant_outline v
  | captured c =>
    have hitems (c : Captured) : (Expr.captured c).items =
        c.evaluate >>= fun v => (Expr.constant v).items := by
      simp only [items]
      cases c.evaluate <;> rfl
    rw [outline, hitems, hitems, c.evaluate_outline]
    cases c.evaluate with
    | error fault => rfl
    | ok v => exact items_constant_outline v
  | _ => rfl

end Expr

namespace Query

variable {e : Entity}

/-! ## Drafts -/

section Draft

variable (d : Draft)

@[simp] theorem outline_put (t : Token) : d.outline.put t = (d.put t).outline := rfl

@[simp] theorem outline_setNested (b : Bool) : d.outline.setNested b = (d.setNested b).outline := rfl

@[simp] theorem outline_truth (b : Bool) : d.outline.truth b = (d.truth b).outline := rfl

@[simp] theorem outline_begun (b : Bool) : d.outline.begun b = (d.begun b).outline := by
  cases b <;> rfl

@[simp] theorem outline_ended (b : Bool) : d.outline.ended b = (d.ended b).outline := by
  cases b <;> rfl

@[simp] theorem outline_beginFilter : d.outline.beginFilter = d.beginFilter.outline := by
  simp only [Draft.beginFilter, show d.outline.tokens = d.tokens from rfl]
  split <;> rfl

@[simp] theorem outline_endFilter (b : Bool) : d.outline.endFilter b = (d.endFilter b).outline := by
  cases b <;> rfl

@[simp] theorem outline_afterFilter (op : Operator) :
    afterFilter op d.outline = (afterFilter op d).outline := by
  cases op <;> rfl

@[simp] theorem outline_boolTest (column : String) (b : Bool) :
    d.outline.boolTest column b = (d.boolTest column b).outline := by
  simp [Draft.boolTest, Draft.bind, Draft.put, Draft.outline, Value.outline]

/-- Binding an outline to an outlined draft ends as binding the value, outlined. -/
theorem outline_value (v : Value) :
    d.outline.value v.outline = (d.value v).map Draft.outline := by
  cases v <;>
    simp [Draft.value, Value.outline, Except.map, Value.typeName, Draft.bind, Draft.put,
      Draft.outline]

/-- Binding the outlines of a list ends as binding the list, outlined. -/
theorem outline_valueList (vs : List Value) :
    d.outline.valueList (vs.map Value.outline) = (d.valueList vs).map Draft.outline := by
  induction vs generalizing d with
  | nil => rfl
  | cons v vs ih =>
    cases vs with
    | nil => exact outline_value d v
    | cons w vs =>
      simp only [List.map_cons, Draft.valueList, outline_value] at ih ⊢
      cases d.value v with
      | error fault => rfl
      | ok d₁ => exact ih (d₁.put (.word ", "))

end Draft

/-- A membership test between outlines ends as the one between the expressions, outlined. -/
theorem outline_contains (collection item : Expr) (d : Draft) :
    contains e collection.outline item.outline d.outline =
      (contains e collection item d).map Draft.outline := by
  simp only [contains, Expr.items_outline, Entity.member_outline, bind_map, map_bind,
    List.isEmpty_map]
  congr 1
  funext items
  split
  · rfl
  · simp only [outline_setNested, outline_put, outline_valueList, bind_map, map_bind]
    rfl

/-- The argument of a step, outlined unless it is a row count. -/
theorem outline_applyStep (op : Operator) (arg : Expr) (d : Draft) :
    applyStep e op (some (if op.isCount arg then arg else arg.outline)) d.outline =
      (applyStep e op (some arg) d).map Draft.outline := by
  have hcount (hop : op = .take ∨ op = .skip) :
      (if op.isCount arg then arg else arg.outline).rowCount? = arg.rowCount? := by
    split
    · rfl
    next h =>
      cases arg with
      | constant v =>
        cases v <;> first | rfl | rcases hop with rfl | rfl <;> simp [Operator.isCount] at h
      | _ => rfl
  have hother (ht : op ≠ .take) (hs : op ≠ .skip) :
      (if op.isCount arg then arg else arg.outline) = arg.outline := by
    simp [Operator.isCount_eq_false ht hs]
  cases op with
  | take | skip =>
    simp only [applyStep, Option.bind_some, hcount (by simp)]
    cases arg.rowCount? <;> rfl
  | orderBy | orderByDescending =>
    rw [hother (by simp) (by simp)]
    simp only [applyStep, Entity.member_outline, map_bind]
    rfl
  | select =>
    rw [hother (by simp) (by simp)]
    simp only [applyStep, Entity.projection_outline, map_bind]
    rfl
  | _ => rfl

/-- Writing an outline ends as writing the value, outlined. -/
theorem outline_literal (p : Bool) (v : Value) (d : Draft) :
    d.outline.literal p v.outline = (d.literal p v).map Draft.outline := by
  cases p <;> cases v <;>
    simp [Draft.literal, Draft.value, Value.outline, Except.map, Value.typeName, Draft.bind,
      Draft.put, Draft.truth, Draft.outline]

/-! ## The walk -/

/-- An outline negates a column of truth values just when the expression does. -/
theorem negatedColumn_outline (x : Expr) :
    visit.negatedColumn? e x.outline = visit.negatedColumn? e x := by
  cases x <;> rfl

/-- A walk over an outline fills the outline of the draft, and fails as the walk does. -/
theorem visit_outline (p : Bool) (x : Expr) (d : Draft) :
    visit e p x.outline d.outline = (visit e p x d).map Draft.outline := by
  induction p, x, d using visit.induct e with
  | case1 p d => rw [Expr.outline, visit, visit]; rfl
  | case2 | case3 => simp only [Expr.outline, visit_constant, outline_literal]
  | case4 p name d | case5 p name d =>
    simp only [Expr.outline, visit_column, map_bind, outline_boolTest, outline_put]
    congr 1
    funext column
    split <;> rfl
  | case6 p c d =>
    simp only [Expr.outline, visit_captured, Captured.evaluate_outline, bind_map, map_bind,
      outline_literal]
  | case7 p op left right d ihl ihr ihr' ihl' =>
    have first (swap : Bool) : visit e op.isLogical (if swap then right.outline else left.outline)
        (d.outline.begun (op.isLogical && d.outline.nested)) =
          (visit e op.isLogical (if swap then right else left)
            (d.begun (op.isLogical && d.nested))).map Draft.outline := by
      rw [outline_begun]
      cases swap with
      | true => exact ihr'
      | false => exact ihl'
    have second (swap : Bool) (d₁ : Draft) :
        visit e op.isLogical (if swap then left.outline else right.outline)
          (d₁.put (.op op)).outline =
            (visit e op.isLogical (if swap then left else right) (d₁.put (.op op))).map
              Draft.outline := by
      cases swap with
      | true => exact ihl d₁
      | false => exact ihr d₁
    simp only [Expr.outline, visit_binary, Expr.nullComesFirst_outline, map_bind, first, second,
      bind_map, outline_put, outline_ended]
    rfl
  | case8 p x d ih => simpa only [Expr.outline, visit] using ih
  | case9 p x d name hname =>
    simp only [Expr.outline, visit_not, negatedColumn_outline, hname, map_bind, outline_boolTest]
    rfl
  | case10 p x d hname ih =>
    simp only [Expr.outline, visit_not, negatedColumn_outline, hname, outline_put,
      outline_setNested, ih, map_bind, bind_map]
    rfl
  | case11 p param x d ih => simpa only [Expr.outline, visit] using ih
  | case12 | case13 => simp only [Expr.outline, visit]; rfl
  | case14 => simp only [Expr.outline, Expr.outlineArgs, visit]; rfl
  | case15 p x d ih => simp only [Expr.outline, Expr.outlineArgs, visit]; rfl
  | case16 p op x d hne ih =>
    cases hop : takesPredicate op with
    | true =>
      simp only [Expr.outline, Expr.outlineArgs, visit_unfiltered _ hop, ih, map_bind, bind_map,
        outline_afterFilter]
      rfl
    | false =>
      simp only [Expr.outline, Expr.outlineArgs, visit_step _ hop hne, ih, map_bind, bind_map,
        List.head?_nil]
      congr 1
      funext d₁
      cases op <;> rfl
  | case17 p x item rest d hrest =>
    obtain rfl := List.isEmpty_iff.mp hrest
    have hcount : Operator.contains.isCount item = false :=
      Operator.isCount_eq_false (by simp) (by simp) item
    simp only [Expr.outline, Expr.outlineArgs, Expr.outlineAll, visit_contains, hcount,
      Bool.false_eq_true, if_false, outline_contains]
  | case18 p x item rest d hrest =>
    have hne : rest ≠ [] := by simpa using hrest
    obtain ⟨y, rest, rfl⟩ := List.exists_cons_of_ne_nil hne
    rfl
  | case19 p op x arg rest d hne ih iharg =>
    cases hop : takesPredicate op with
    | true =>
      have hcount : op.isCount arg = false :=
        Operator.isCount_eq_false (by rintro rfl; cases hop) (by rintro rfl; cases hop) arg
      have hpredicate (d₁ : Draft) : visit e true arg.outline d₁.beginFilter.outline =
          (visit e true arg d₁.beginFilter).map Draft.outline := iharg d₁
      simp only [Expr.outline, Expr.outlineArgs, visit_filter _ hop, ih, map_bind, bind_map,
        hcount, outline_beginFilter, Bool.false_eq_true, if_false, hpredicate]
      congr 1
      funext d₁
      congr 1
      funext d₂
      rw [outline_endFilter, outline_afterFilter]
      rfl
    | false =>
      simp only [Expr.outline, Expr.outlineArgs, visit_step _ hop hne, ih, map_bind, bind_map,
        List.head?_cons, outline_applyStep]

end Query

end SqlCompose
