import SqlCompose.Proofs.Query.Walk
import SqlCompose.Query.Select
import SqlCompose.Sample.Users

/-!
# Captured values settled beforehand

A captured value is read when a walk comes to it. Reading it beforehand, and putting a constant in
its place (`Expr.settle`), makes no difference to any query: it is compiled alike, or refused with
the same error (`plans_settle`). Only the number of rows that a step is given has to be written into
the query, so there a captured value is refused and a constant is not.
-/

namespace SqlCompose

/-! ## Settling -/

/-- A captured value as a constant, if it can be read. -/
def Captured.settle (c : Captured) : Expr :=
  match c.evaluate with
  | .ok v => .constant v
  | .error _ => .captured c

/-- A captured value either can be read and settles to a constant, or cannot and stays captured. -/
theorem Captured.settle_cases (c : Captured) :
    (∃ v, c.evaluate = .ok v ∧ c.settle = .constant v) ∨
      (∃ fault, c.evaluate = .error fault) ∧ c.settle = .captured c := by
  unfold settle
  cases h : c.evaluate with
  | ok v => exact .inl ⟨v, rfl, rfl⟩
  | error fault => exact .inr ⟨⟨fault, rfl⟩, rfl⟩

/-- Whether a step is given its number of rows as a captured value. -/
def Operator.countsCaptured (op : Operator) : List Expr → Bool
  | _ :: .captured _ :: _ => op == .take || op == .skip
  | _ => false

namespace Expr

mutual

/-- An expression with constants in the place of the captured values that can be read. -/
def settle : Expr → Expr
  | .source => .source
  | .constant v => .constant v
  | .column name => .column name
  | .captured c => c.settle
  | .binary op left right => .binary op left.settle right.settle
  | .unary op operand => .unary op operand.settle
  | .call op args => .call op (settleAll args)
  | .lambda name body => .lambda name body.settle
  | .param name => .param name
  | .construct members => .construct (settleAll members)

/-- Several expressions, settled. -/
def settleAll : List Expr → List Expr
  | [] => []
  | x :: xs => x.settle :: settleAll xs

end

mutual

/-- The captured values in an expression. -/
def captures : Expr → List Captured
  | .captured c => [c]
  | .binary _ left right => left.captures ++ right.captures
  | .unary _ operand => operand.captures
  | .call _ args => capturesOf args
  | .lambda _ body => body.captures
  | .construct members => capturesOf members
  | .source | .constant _ | .column _ | .param _ => []

/-- The captured values in several expressions. -/
def capturesOf : List Expr → List Captured
  | [] => []
  | x :: xs => x.captures ++ capturesOf xs

end

mutual

/-- Whether a step in an expression is given its number of rows as a captured value. -/
def countsCaptured : Expr → Bool
  | .binary _ left right => left.countsCaptured || right.countsCaptured
  | .unary _ operand => operand.countsCaptured
  | .call op args => op.countsCaptured args || anyCountsCaptured args
  | .lambda _ body => body.countsCaptured
  | .construct members => anyCountsCaptured members
  | .source | .constant _ | .column _ | .captured _ | .param _ => false

/-- Whether a step in one of several expressions is. -/
def anyCountsCaptured : List Expr → Bool
  | [] => false
  | x :: xs => x.countsCaptured || anyCountsCaptured xs

end

/-- Several expressions settle one by one. -/
theorem settleAll_eq_map (xs : List Expr) : settleAll xs = xs.map settle := by
  induction xs with
  | nil => rfl
  | cons x xs ih => rw [settleAll, ih, List.map_cons]

mutual

/-- Where all captured values can be read, settling leaves none. -/
theorem captures_settle : (x : Expr) → (∀ c ∈ x.captures, ∃ v, c.evaluate = .ok v) →
    x.settle.captures = []
  | .captured c, h => by
    obtain ⟨v, hv⟩ := h c (by simp [captures])
    simp [settle, Captured.settle, hv, captures]
  | .binary op left right, h => by
    simp only [captures, List.forall_mem_append] at h
    simp [settle, captures, captures_settle left h.1, captures_settle right h.2]
  | .unary op operand, h => captures_settle operand h
  | .call op args, h => capturesOf_settleAll args h
  | .lambda name body, h => captures_settle body h
  | .construct members, h => capturesOf_settleAll members h
  | .source, _ | .constant _, _ | .column _, _ | .param _, _ => rfl

/-- No captured value is left in several expressions that settle, if all of them can be read. -/
theorem capturesOf_settleAll : (xs : List Expr) →
    (∀ c ∈ capturesOf xs, ∃ v, c.evaluate = .ok v) → capturesOf (settleAll xs) = []
  | [], _ => rfl
  | x :: xs, h => by
    simp only [capturesOf, List.forall_mem_append] at h
    simp [settleAll, capturesOf, captures_settle x h.1, capturesOf_settleAll xs h.2]

end

end Expr

/-! ## What settling keeps -/

namespace Entity

variable {e : Entity}

/-- A captured value names no column, read or not. -/
theorem member_captured_settle (c : Captured) : e.member c.settle = e.member (.captured c) := by
  rcases c.settle_cases with ⟨v, -, h⟩ | ⟨-, h⟩ <;> simp [h, member]

/-- Settling changes no column that is named. -/
theorem member_settle (x : Expr) : e.member x.settle = e.member x := by
  fun_induction e.member x with
  | case1 name body ih => simpa [Expr.settle, member] using ih
  | case2 operand ih => simpa [Expr.settle, member] using ih
  | case3 name => rfl
  | case4 x hlambda hconvert hcolumn =>
    cases x with
    | lambda name body => exact absurd rfl (hlambda name body)
    | column name => exact absurd rfl (hcolumn name)
    | captured c => exact member_captured_settle c
    | unary op operand =>
      cases op with
      | convert => exact absurd rfl (hconvert operand)
      | not => rfl
    | _ => rfl

/-- Settling changes none of the columns that are named. -/
theorem mapM_member_settleAll (xs : List Expr) :
    (Expr.settleAll xs).mapM e.member = xs.mapM e.member := by
  rw [Expr.settleAll_eq_map, List.mapM_map]
  exact congrArg (xs.mapM ·) (funext member_settle)

/-- A projection keeps neither captured values nor constants. -/
theorem projection_captured_settle (c : Captured) :
    e.projection c.settle = e.projection (.captured c) ∧
      ∀ name, e.projection (.lambda name c.settle) = e.projection (.lambda name (.captured c)) := by
  rcases c.settle_cases with ⟨v, -, h⟩ | ⟨-, h⟩ <;> (rw [h]; exact ⟨rfl, fun name => rfl⟩)

/-- Settling changes no projection. -/
theorem projection_settle (x : Expr) : e.projection x.settle = e.projection x := by
  have hunary (op : UnaryOp) (operand : Expr) :
      e.member (.unary op operand.settle) = e.member (.unary op operand) :=
    member_settle (.unary op operand)
  have hmembers (x : Expr) (xs : List Expr) :
      (x.settle :: Expr.settleAll xs).mapM e.member = (x :: xs).mapM e.member :=
    mapM_member_settleAll (x :: xs)
  cases x with
  | captured c => exact (projection_captured_settle c).1
  | lambda name body =>
    cases body with
    | captured c => exact (projection_captured_settle c).2 name
    | construct members =>
      cases members <;> simp only [Expr.settle, Expr.settleAll, projection, hmembers]
    | param => rfl
    | _ => simp only [Expr.settle, projection, hunary]
  | construct members =>
    cases members <;> simp only [Expr.settle, Expr.settleAll, projection, hmembers]
  | param => rfl
  | _ => simp only [Expr.settle, projection, hunary]

end Entity

namespace Expr

/-- A captured value is null just when the constant it settles to is. -/
theorem isNull_captured_settle (c : Captured) : c.settle.isNull = (Expr.captured c).isNull := by
  rcases c.settle_cases with ⟨v, hv, h⟩ | ⟨-, h⟩
  · simp [h, isNull, hv, bind, Except.bind]
  · rw [h]

/-- Settling changes nothing about what is null. -/
theorem isNull_settle (x : Expr) : x.settle.isNull = x.isNull := by
  fun_induction Expr.isNull x with
  | case1 v => rfl
  | case2 c => exact isNull_captured_settle c
  | case3 operand ih => simpa [settle, isNull] using ih
  | case4 x hconstant hcaptured hconvert =>
    cases x with
    | constant v => exact absurd rfl (hconstant v)
    | captured c => exact absurd rfl (hcaptured c)
    | unary op operand =>
      cases op with
      | convert => exact absurd rfl (hconvert operand)
      | not => rfl
    | _ => rfl

/-- Settling changes nothing about on which side a null stands. -/
theorem nullComesFirst_settle (op : BinaryOp) (left right : Expr) :
    nullComesFirst op left.settle right.settle = nullComesFirst op left right := by
  simp only [nullComesFirst, isNull_settle]

/-- Settling changes none of the items of a collection. -/
theorem items_settle (x : Expr) : x.settle.items = x.items := by
  cases x with
  | captured c =>
    rcases c.settle_cases with ⟨v, hv, h⟩ | ⟨-, h⟩
    · simp [settle, h, items, hv]
    · rw [settle, h]
  | _ => rfl

/-- No row count becomes one by settling, unless it is a captured value. -/
theorem rowCount?_settle {x : Expr} (h : ∀ c, x ≠ .captured c) :
    x.settle.rowCount? = x.rowCount? := by
  cases x with
  | captured c => exact absurd rfl (h c)
  | _ => rfl

end Expr

namespace Query

variable {e : Entity}

/-- A membership test writes the same after settling. -/
theorem contains_settle (collection item : Expr) :
    contains e collection.settle item.settle = contains e collection item := by
  unfold contains
  rw [Expr.items_settle, Entity.member_settle]

/-- A step does the same after settling, unless its number of rows was captured. -/
theorem applyStep_settle {op : Operator} {src arg : Expr} {rest : List Expr}
    (h : op.countsCaptured (src :: arg :: rest) = false) :
    applyStep e op (some arg.settle) = applyStep e op (some arg) := by
  have hcaptured (hop : op = .take ∨ op = .skip) : arg.settle.rowCount? = arg.rowCount? := by
    refine Expr.rowCount?_settle ?_
    rintro c rfl
    rcases hop with rfl | rfl <;> cases h
  funext d
  cases op with
  | take | skip => simp only [applyStep, Option.bind_some, hcaptured (by simp)]
  | orderBy | orderByDescending => simp only [applyStep, Entity.member_settle]
  | select => simp only [applyStep, Entity.projection_settle]
  | _ => rfl

/-- Settling changes nothing about which negated operand is a column of truth values. -/
theorem negatedColumn_settle (x : Expr) :
    visit.negatedColumn? e x.settle = visit.negatedColumn? e x := by
  cases x with
  | captured c =>
    rcases c.settle_cases with ⟨v, -, h⟩ | ⟨-, h⟩ <;> simp [Expr.settle, h, visit.negatedColumn?]
  | _ => rfl

/-! ## The walk -/

/-- A walk over a captured value ends as one over what it settles to. -/
theorem visit_captured_settle (p : Bool) (c : Captured) (d : Draft) :
    visit e p c.settle d = visit e p (.captured c) d := by
  rcases c.settle_cases with ⟨v, hv, h⟩ | ⟨-, h⟩
  · rw [h, visit_constant, visit_captured, hv]
    rfl
  · rw [h]

/-- A walk does not notice that captured values were settled beforehand. -/
theorem visit_settle (p : Bool) (x : Expr) (d : Draft) (h : x.countsCaptured = false) :
    visit e p x.settle d = visit e p x d := by
  induction p, x, d using visit.induct e with
  | case1 p d => rfl
  | case2 | case3 | case4 | case5 => rfl
  | case6 p c d => exact visit_captured_settle p c d
  | case7 p op left right d ihl ihr ihr' ihl' =>
    obtain ⟨hl, hr⟩ := Bool.or_eq_false_iff.mp h
    have first (swap : Bool) : visit e op.isLogical (if swap then right.settle else left.settle)
        (d.begun (op.isLogical && d.nested)) =
          visit e op.isLogical (if swap then right else left)
            (d.begun (op.isLogical && d.nested)) := by
      cases swap with
      | true => exact ihr' hr
      | false => exact ihl' hl
    have second (swap : Bool) (d₁ : Draft) :
        visit e op.isLogical (if swap then left.settle else right.settle) (d₁.put (.op op)) =
          visit e op.isLogical (if swap then left else right) (d₁.put (.op op)) := by
      cases swap with
      | true => exact ihl d₁ hl
      | false => exact ihr d₁ hr
    simp only [Expr.settle, visit_binary, Expr.nullComesFirst_settle, first, second]
  | case8 p x d ih => simpa only [Expr.settle, visit] using ih h
  | case9 p x d name hname => simp only [Expr.settle, visit_not, negatedColumn_settle, hname]
  | case10 p x d hname ih => simp only [Expr.settle, visit_not, negatedColumn_settle, hname, ih h]
  | case11 p param x d ih => simpa only [Expr.settle, visit] using ih h
  | case12 | case13 => simp only [Expr.settle, visit]
  | case14 => rfl
  | case15 p x d ih => simp only [Expr.settle, Expr.settleAll, visit]; rfl
  | case16 p op x d hne ih =>
    have hx : x.countsCaptured = false := by
      simpa [Expr.countsCaptured, Expr.anyCountsCaptured, Operator.countsCaptured] using h
    cases hop : takesPredicate op with
    | true => simp only [Expr.settle, Expr.settleAll, visit_unfiltered _ hop, ih hx]
    | false =>
      simp only [Expr.settle, Expr.settleAll, visit_step _ hop hne, ih hx]
  | case17 p x item rest d hrest =>
    obtain rfl := List.isEmpty_iff.mp hrest
    simp only [Expr.settle, Expr.settleAll, visit_contains, contains_settle]
  | case18 p x item rest d hrest =>
    have hne : rest ≠ [] := by simpa using hrest
    obtain ⟨y, rest, rfl⟩ := List.exists_cons_of_ne_nil hne
    rfl
  | case19 p op x arg rest d hne ih iharg =>
    simp only [Expr.countsCaptured, Expr.anyCountsCaptured, Bool.or_eq_false_iff] at h
    obtain ⟨hcount, hx, harg, -⟩ := h
    cases hop : takesPredicate op with
    | true =>
      have hpredicate (d₁ : Draft) :
          visit e true arg.settle d₁.beginFilter = visit e true arg d₁.beginFilter := iharg d₁ harg
      simp only [Expr.settle, Expr.settleAll, visit_filter _ hop, ih hx, hpredicate]
    | false =>
      simp only [Expr.settle, Expr.settleAll, visit_step _ hop hne, ih hx, List.head?_cons,
        applyStep_settle hcount]

end Query

/-! ## Plans -/

/-- Putting constants in the place of all captured values makes no difference to a query in any
dialect, and none to a predicate behind bound values: it is compiled alike or refused with the same
error. -/
theorem plans_settle (d : Dialect) (e : Entity) (x : Expr)
    (hcaptures : ∀ c ∈ x.captures, ∃ v, c.evaluate = .ok v) (hcounts : x.countsCaptured = false) :
    x.settle.captures = [] ∧ d.planQuery e x.settle = d.planQuery e x ∧
      d.compile e x.settle = d.compile e x ∧
      ∀ bound, d.planFilter e x.settle bound = d.planFilter e x bound := by
  have hplan : d.planQuery e x.settle = d.planQuery e x := by
    rw [Dialect.planQuery, Dialect.planQuery, Query.draft, Query.draft,
      Query.visit_settle false x _ hcounts]
  refine ⟨Expr.captures_settle x hcaptures, hplan, ?_, fun bound => ?_⟩
  · rw [Dialect.compile, Dialect.compile, hplan]
  · rw [Dialect.planFilter, Dialect.planFilter, Query.draftFilter, Query.draftFilter,
      Query.visit_settle true x _ hcounts]

/-! ## A query with values in many places -/

/-- A query for adults without an address, among some ages, with what stands for each value: the
value stands on the side of a null, under changes of type, as a collection and as a predicate. -/
def adultsAmong (leaf : Value → Expr) : Expr :=
  let adults : Expr :=
    .chain .and (.binary .eq (leaf .null).convert.convert (.col "email"))
      [.binary .ge (.col "age") (leaf (.int 18)).convert,
        .isIn (.col "age") (leaf (.list [.int 18, .int 81])), (leaf (.bool false)).negate]
  .call .take [.call .select [.call .filter [.source, adults.toLambda],
    (Projection.columns ["name"]).toLambda], .rowCount 3]

/-- A value held as the member of a record. -/
def heldValue (v : Value) : Captured := ⟨.record [("held", v)], ["held"]⟩

/-- Adults among some ages without an address: captured and constant values give one plan. -/
theorem plans_settle_adultsAmong :
    (∀ c ∈ (adultsAmong fun v => .captured (heldValue v)).captures, ∃ v, c.evaluate = .ok v) ∧
      (adultsAmong fun v => .captured (heldValue v)).countsCaptured = false ∧
      (adultsAmong fun v => .captured (heldValue v)).settle = adultsAmong .constant ∧
      (∃ t, Dialect.postgres.planQuery Sample.users (adultsAmong .constant) = .ok t ∧
        t.params = [.int 18, .int 18, .int 81]) ∧
      Dialect.postgres.planQuery Sample.users (adultsAmong .constant) =
        Dialect.postgres.planQuery Sample.users (adultsAmong fun v => .captured (heldValue v)) := by
  have hvalues : (adultsAmong fun v => .captured (heldValue v)).captures =
      [.null, .int 18, .list [.int 18, .int 81], .bool false].map heldValue := rfl
  have hcaptures : ∀ c ∈ (adultsAmong fun v => .captured (heldValue v)).captures,
      ∃ v, c.evaluate = .ok v := by
    intro c hc
    rw [hvalues] at hc
    obtain ⟨v, -, rfl⟩ := List.mem_map.mp hc
    exact ⟨v, rfl⟩
  exact ⟨hcaptures, rfl, rfl, ⟨_, rfl, rfl⟩,
    (plans_settle .postgres Sample.users _ hcaptures rfl).2.1⟩

end SqlCompose
