import SqlCompose.Proofs.Formula.Grouping
import SqlCompose.Proofs.Formula.Written

/-!
# Assertions are written as layouts

An assertion is a predicate of a query in which predicates can be operands. A walk over it writes a
layout (`Sql.visit_assertion`), whose operands have the values of its columns and constants on every
row, whatever values are bound later.
-/

namespace SqlCompose.Sql

open Query (visit)

/-! ## Assertions -/

/-- A predicate in which predicates can be operands. -/
inductive Assertion where
  | column (name : String)
  | value (v : Value)
  | binary (op : BinaryOp) (a b : Assertion)
  | not (a : Assertion)
  | isIn (a : Assertion) (items : List Value)

namespace Assertion

/-- The expression of an assertion. -/
def toExpr : Assertion → Expr
  | .column name => .column name
  | .value v => .constant v
  | .binary op a b => .binary op a.toExpr b.toExpr
  | .not a => a.toExpr.negate
  | .isIn a items => a.toExpr.isIn (.captured (.ofValue (.list items)))

/-- The columns that an assertion names. -/
def names : Assertion → List String
  | .column name => [name]
  | .value _ => []
  | .binary _ a b => a.names ++ b.names
  | .not a | .isIn a _ => a.names

/-- Whether an assertion is the null constant. -/
def isNull : Assertion → Bool
  | .value v => v.isNull
  | _ => false

/-- The column of truth values that an assertion is. -/
def boolColumn? (e : Entity) : Assertion → Option String
  | .column name => if e.isBoolColumn name then some name else none
  | _ => none

section Layout

variable {α : Type} (e : Entity) (column : String → α) (value : Value → α)

/-- A test of a column for a truth value. -/
def boolTest (name : String) (b : Bool) : Layout α :=
  .binary .eq (.operand (column name)) (.operand (value (.bool b)))

/-- How an assertion is written, given what stands for its columns and constants. The flag says
whether a predicate is wanted. -/
def layout : Bool → Assertion → Layout α
  | predicate, .column name =>
    if predicate && e.isBoolColumn name then boolTest column value name true
    else .operand (column name)
  | predicate, .value v =>
    match predicate, v with
    | true, .bool b => .truth b
    | _, .null => .null
    | _, v => .operand (value v)
  | _, .binary op a b =>
    if op.isEquality && a.isNull && !b.isNull then
      .binary op (b.layout op.isLogical) (a.layout op.isLogical)
    else .binary op (a.layout op.isLogical) (b.layout op.isLogical)
  | _, .not a =>
    match a.boolColumn? e with
    | some name => boolTest column value name false
    | none => .not (a.layout true)
  | _, .isIn a items =>
    if items.isEmpty then .truth false else .isIn (a.layout false) (items.map value)

/-- What stands for the columns and constants of an assertion can be replaced in its layout. -/
theorem map_layout {β : Type} (f : α → β) (predicate : Bool) (a : Assertion) :
    (a.layout e column value predicate).map f =
      a.layout e (fun name => f (column name)) (fun v => f (value v)) predicate := by
  induction a generalizing predicate with
  | column name =>
    unfold layout
    split <;> rfl
  | value v => cases predicate <;> cases v <;> rfl
  | binary op a b iha ihb =>
    unfold layout
    split <;> simp only [Layout.map, iha, ihb]
  | not a ih =>
    unfold layout
    split
    · rfl
    · simp only [Layout.map, ih]
  | isIn a items ih =>
    unfold layout
    split
    · rfl
    · simp only [Layout.map, ih, List.map_map]
      rfl

end Layout

end Assertion

/-! ## Writing -/

variable {e : Entity}

/-- What stands for the columns and constants of an assertion on a row. -/
def Assertion.written (a : Assertion) (e : Entity) (d : Dialect) (row : Record e)
    (predicate : Bool) : Layout Value :=
  a.layout e (fun name => d.param (row.get name)) d.param predicate

/-- Whether a layout has the operands of an assertion on every row, with some values bound and
whatever values follow them. -/
def Layout.StandsFor (w : Layout Term) (e : Entity) (a : Assertion) (predicate : Bool)
    (values : List Value) : Prop :=
  ∀ (d : Dialect) (row : Record e) (more : List Value), values <+: more →
    w.map (Term.value (row.stored d) (more.map d.param)) = a.written e d row predicate

/-- Whether a layout that stands for an assertion has been written behind a draft. -/
structure LaidOut (a : Assertion) (e : Entity) (p : Bool) (d d' : Draft) (w : Layout Term) : Prop
    extends Lays d d' w where
  stands : w.StandsFor e a p d'.values

/-- A column as an operand is laid out as itself. -/
theorem laidOut_column {name column : String} {p : Bool} (d : Draft)
    (hbool : (p && e.isBoolColumn name) = false) (hcolumn : e.columnName name = .ok column)
    (hplain : IsPlain column) :
    LaidOut (.column name) e p d (d.put (.ident column)) (.operand (.column column)) where
  toLays := lays_column hplain d
  stands := fun dialect row more _ => by
    have hget : row.get name = row.value column := by simp [Record.get, hcolumn]
    simp [Layout.map, Term.value, Record.stored, Assertion.written, Assertion.layout, hbool, hget]

/-- A column of truth values is laid out as the comparison with a parameter. -/
theorem laidOut_boolTest {name column : String} {p b : Bool} {a : Assertion} (d : Draft)
    (ha : ∀ dialect (row : Record e), a.written e dialect row p = Assertion.boolTest
      (fun name => dialect.param (row.get name)) dialect.param name b)
    (hcolumn : e.columnName name = .ok column) (hplain : IsPlain column) :
    LaidOut a e p d (d.boolTest column b)
      (.binary .eq (.operand (.column column)) (.operand (.param d.values.length))) where
  toLays := lays_boolTest hplain d b
  stands := by
    rintro dialect row _ ⟨rest, rfl⟩
    have hget : row.get name = row.value column := by simp [Record.get, hcolumn]
    rw [ha]
    simp [Layout.map, Term.value, Record.stored, Assertion.boolTest, hget, Draft.boolTest, Draft.bind]

/-- A truth value is laid out as itself. -/
theorem laidOut_truth {p b : Bool} {a : Assertion} (d : Draft)
    (ha : ∀ dialect (row : Record e), a.written e dialect row p = .truth b) :
    LaidOut a e p d (d.truth b) (.truth b) where
  toLays := lays_truth d b
  stands := fun dialect row _ _ => (ha dialect row).symm

/-- A constant is laid out as what stands for it. -/
theorem laidOut_value {p : Bool} {v : Value} {d d' : Draft} (h : d.literal p v = .ok d') :
    ∃ w, LaidOut (.value v) e p d d' w := by
  rcases Draft.literal_cases h with ⟨b, rfl, rfl, rfl⟩ | ⟨htruth, hvalue⟩
  · exact ⟨.truth b, laidOut_truth d fun _ _ => rfl⟩
  · obtain ⟨t, ht, hnull, hext, hnested, hterm⟩ := value_term (P := IsPlain) hvalue
    refine ⟨.ofTerm t, lays_term ht hext hnested, fun dialect row more hmore => ?_⟩
    by_cases hv : v = .null
    · subst hv
      obtain rfl := hnull.mpr rfl
      cases p <;> rfl
    · have hwritten : (Assertion.value v).written e dialect row p = .operand (dialect.param v) := by
        unfold Assertion.written Assertion.layout
        split
        · exact absurd ⟨rfl, _, rfl⟩ htruth
        · exact absurd rfl hv
        · rfl
      have hoperand : Layout.ofTerm t = .operand t := by
        cases t with
        | null => exact absurd (Value.isNull_iff.mp (hnull.mp rfl)) hv
        | _ => rfl
      rw [hwritten, hoperand, Layout.map, hterm dialect _ more hmore]

/-- The expression of an assertion is null just when the assertion is the null constant. -/
theorem isNull_assertion (a : Assertion) : a.toExpr.isNull = .ok a.isNull := by
  cases a <;> rfl

/-- A null comes first in a comparison for equality with the null constant on the left alone. -/
theorem nullComesFirst_assertion (op : BinaryOp) (a b : Assertion) :
    Expr.nullComesFirst op a.toExpr b.toExpr =
      .ok (op.isEquality && a.isNull && !b.isNull) := by
  unfold Expr.nullComesFirst
  rw [isNull_assertion, isNull_assertion]
  cases op.isEquality <;> cases a.isNull <;> cases b.isNull <;> rfl

/-- An operator between layouts that stand for its operands. -/
theorem laidOut_binary {op : BinaryOp} {a b : Assertion} {u v : Layout Term} {d d₁ d₂ : Draft}
    (hu : LaidOut a e op.isLogical (d.begun (op.isLogical && d.nested)) d₁ u)
    (hv : LaidOut b e op.isLogical (d₁.put (.op op)) d₂ v) {x : Assertion} {p : Bool}
    (hx : ∀ dialect (row : Record e), x.written e dialect row p =
      .binary op (a.written e dialect row op.isLogical) (b.written e dialect row op.isLogical)) :
    LaidOut x e p d (d₂.ended (op.isLogical && d.nested)) (.binary op u v) where
  toLays := lays_binary hu.toLays hv.toLays
  stands := by
    rw [Draft.values_ended]
    intro dialect row more hmore
    rw [hx, Layout.map, hu.stands dialect row more (hv.values.trans hmore),
      hv.stands dialect row more hmore]

/-- A negation in front of a layout that stands for its part. -/
theorem laidOut_not {a : Assertion} {d d₁ : Draft} {w : Layout Term}
    (h : LaidOut a e true ((d.put (.word "NOT (")).setNested false) d₁ w) {x : Assertion} {p : Bool}
    (hx : ∀ dialect (row : Record e), x.written e dialect row p =
      .not (a.written e dialect row true)) :
    LaidOut x e p d ((d₁.setNested true).put (.word ")")) (.not w) where
  toLays := lays_not h.toLays
  stands := fun dialect row more hmore => by
    rw [hx, Layout.map, h.stands dialect row more hmore]

/-- An assertion that is a column of truth values is that column. -/
theorem column_of_boolColumn {a : Assertion} {name : String} (h : a.boolColumn? e = some name) :
    a = .column name := by
  cases a with
  | column name' =>
    have h : (if e.isBoolColumn name' then some name' else none) = some name := h
    split at h
    · rw [Option.some.inj h]
    · cases h
  | _ => cases h

/-- Only a column can be looked for in a list. -/
theorem column_of_member {a : Assertion} {column : String} (h : e.member a.toExpr = .ok column) :
    ∃ name, a = .column name ∧ e.columnName name = .ok column := by
  cases a with
  | column name => exact ⟨name, rfl, h⟩
  | _ => cases h

/-- A membership test is laid out as one. -/
theorem laidOut_contains {a : Assertion} {items : List Value} (hnames : PlainNames e a.names)
    {p : Bool} {d d' : Draft}
    (h : Query.contains e (.captured (.ofValue (.list items))) a.toExpr d = .ok d') :
    ∃ w, LaidOut (.isIn a items) e p d d' w := by
  obtain ⟨items', hitems, h⟩ := bind_eq_ok.mp h
  obtain rfl : items = items' := Except.ok.inj hitems
  cases items with
  | nil =>
    cases h
    exact ⟨.truth false, laidOut_truth d fun _ _ => rfl⟩
  | cons v vs =>
    rw [if_neg (by simp)] at h
    obtain ⟨column, hcolumn, h⟩ := bind_eq_ok.mp h
    obtain ⟨d₁, hlist, h⟩ := bind_eq_ok.mp h
    cases h
    obtain ⟨name, rfl, hname⟩ := column_of_member hcolumn
    have hplain := hnames name (by simp [Assertion.names]) column hname
    obtain ⟨ts, hts, hlength, hext, hnested, hterms⟩ := valueList_terms hlist
    have hne : ts ≠ [] := by
      rintro rfl
      cases hlength
    refine ⟨_, lays_isIn hplain hne hts hext hnested, fun dialect row more hmore => ?_⟩
    have hget : row.get name = row.value column := by simp [Record.get, hname]
    rw [Layout.map, hterms dialect _ more hmore]
    simp [Assertion.written, Assertion.layout, Layout.map, Term.value, Record.stored, hget]

/-- An assertion is written as a layout that stands for it. -/
theorem visit_assertion {a : Assertion} (hnames : PlainNames e a.names) {p : Bool} {d d' : Draft}
    (h : visit e p a.toExpr d = .ok d') : ∃ w, LaidOut a e p d d' w := by
  induction a generalizing p d d' with
  | column name =>
    rw [Assertion.toExpr, Query.visit_column] at h
    obtain ⟨column, hcolumn, h⟩ := bind_eq_ok.mp h
    have hplain := hnames name (by simp [Assertion.names]) column hcolumn
    cases hbool : p && e.isBoolColumn name with
    | true =>
      rw [hbool] at h
      cases h
      refine ⟨_, laidOut_boolTest d (fun dialect row => ?_) hcolumn hplain⟩
      rw [Assertion.written, Assertion.layout, if_pos hbool]
    | false =>
      rw [hbool] at h
      cases h
      exact ⟨_, laidOut_column d hbool hcolumn hplain⟩
  | value v =>
    rw [Assertion.toExpr, Query.visit_constant] at h
    exact laidOut_value h
  | binary op a b iha ihb =>
    have ha : PlainNames e a.names := fun name hn => hnames name (by simp [Assertion.names, hn])
    have hb : PlainNames e b.names := fun name hn => hnames name (by simp [Assertion.names, hn])
    rw [Assertion.toExpr, Query.visit_binary, nullComesFirst_assertion] at h
    obtain ⟨swap, hswap, h⟩ := bind_eq_ok.mp h
    obtain rfl := Except.ok.inj hswap
    obtain ⟨d₁, h₁, h⟩ := bind_eq_ok.mp h
    obtain ⟨d₂, h₂, h⟩ := bind_eq_ok.mp h
    cases h
    cases hswap : op.isEquality && a.isNull && !b.isNull with
    | true =>
      rw [hswap] at h₁ h₂
      obtain ⟨u, hu⟩ := ihb hb h₁
      obtain ⟨v, hv⟩ := iha ha h₂
      refine ⟨_, laidOut_binary hu hv fun dialect row => ?_⟩
      rw [Assertion.written, Assertion.layout, if_pos hswap]
      rfl
    | false =>
      rw [hswap] at h₁ h₂
      obtain ⟨u, hu⟩ := iha ha h₁
      obtain ⟨v, hv⟩ := ihb hb h₂
      refine ⟨_, laidOut_binary hu hv fun dialect row => ?_⟩
      rw [Assertion.written, Assertion.layout, hswap, if_neg nofun]
      rfl
  | not a ih =>
    have hcolumn? : visit.negatedColumn? e a.toExpr = a.boolColumn? e := by cases a <;> rfl
    rw [Assertion.toExpr, Expr.negate, Query.visit_not, hcolumn?] at h
    split at h
    next name hname =>
      obtain ⟨column, hcolumn, h⟩ := bind_eq_ok.mp h
      cases h
      obtain rfl := column_of_boolColumn hname
      have hplain := hnames name (by simp [Assertion.names]) column hcolumn
      refine ⟨_, laidOut_boolTest d (fun dialect row => ?_) hcolumn hplain⟩
      rw [Assertion.written, Assertion.layout, hname]
    next hname =>
      obtain ⟨d₁, h₁, h⟩ := bind_eq_ok.mp h
      cases h
      obtain ⟨w, hw⟩ := ih hnames h₁
      refine ⟨.not w, laidOut_not hw fun dialect row => ?_⟩
      rw [Assertion.written, Assertion.layout, hname]
      rfl
  | isIn a items ih =>
    rw [Assertion.toExpr, Expr.isIn, Query.visit_contains] at h
    have ha : PlainNames e a.names := hnames
    exact laidOut_contains ha h

end SqlCompose.Sql
