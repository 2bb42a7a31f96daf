import SqlCompose.Proofs.Condition.Meaning
import SqlCompose.Proofs.Formula.Misreading
import SqlCompose.Proofs.Formula.Term

/-!
# What predicate texts mean

The condition of a plan for a predicate text is read back as the layout of the assertion that the
text becomes (`Predicate.readFormula_term`). So it means what the text means if the layout is grouped
and tests for a truth value are of truth values only.
-/

namespace SqlCompose.Predicate

open Sql (Judge Truth Formula Layout Assertion Record nullTest PlainNames IsPlain)

variable {e : Entity}

/-! ## What an assertion is meant as -/

section Meaning

variable {j : Judge} {d : Dialect} {row : Record e}

/-- Whether what an assertion is meant as has a value, and its truth value where a predicate is
wanted. -/
structure MeantAs (j : Judge) (d : Dialect) (row : Record e) (a : Assertion) (v : Value) : Prop where
  value : ((a.written e d row false).tree d).value j d = v
  truth : j.truthOf (((a.written e d row true).tree d).value j d) = j.truthOf v

/-- What is written in the same way with a predicate wanted and without. -/
theorem MeantAs.of_same {a : Assertion} {v : Value}
    (hsame : a.written e d row true = a.written e d row false)
    (h : ((a.written e d row false).tree d).value j d = v) : MeantAs j d row a v :=
  ⟨h, by rw [hsame, h]⟩

/-- A column of truth values holds one or none. -/
theorem get_boolColumn (row : Record e) {name : String} (h : e.isBoolColumn name = true) :
    row.get name = .null ∨ ∃ b, row.get name = .bool b := by
  unfold Record.get
  split
  next column hcolumn => exact row.bool h hcolumn
  next => exact .inl rfl

/-- What a column of truth values holds is compared with a truth value as it is judged. -/
theorem compare_boolColumn (row : Record e) {name : String} (h : e.isBoolColumn name = true) :
    j.compare .eq (d.param (row.get name)) (d.boolValue true) = j.truthOf (d.param (row.get name)) ∧
      j.compare .eq (d.param (row.get name)) (d.boolValue false) =
        (j.truthOf (d.param (row.get name))).not := by
  rcases get_boolColumn row h with hnull | ⟨b, hb⟩
  · rw [hnull]
    exact ⟨rfl, rfl⟩
  · rw [hb, Dialect.param, Sql.Engine.compare_boolValue, Sql.Engine.compare_boolValue,
      Sql.truthOf_boolValue]
    cases b <;> exact ⟨rfl, rfl⟩

/-- A column is meant as its value in the row. -/
theorem meantAs_column (name : String) :
    MeantAs j d row (.column name) (d.param (row.get name)) := by
  refine ⟨rfl, ?_⟩
  cases hbool : e.isBoolColumn name with
  | false =>
    rw [Assertion.written, Assertion.layout, hbool]
    rfl
  | true =>
    rw [Assertion.written, Assertion.layout, hbool]
    show j.truthOf ((j.compare .eq (d.param (row.get name)) (d.boolValue true)).toValue d) = _
    rw [Sql.truthOf_toValue, (compare_boolColumn row hbool).1]

/-- The predicate that holds always, or never, has that truth value. -/
theorem value_truthTree (j : Judge) (d : Dialect) (b : Bool) :
    (Layout.truthTree d b).value j d = d.boolValue b := by
  have hnumbers (d : Dialect) : ((Formula.compare .eq (.number 1)
      (.number (if b then 1 else 0))).value j d) = d.boolValue b := by
    have hcompare : j.compare .eq (.int (Int64.ofNat 1)) (.int (Int64.ofNat (if b then 1 else 0))) =
        .ofBool b := by
      cases b <;> simp [Sql.Engine.compare, Value.isNull, j.holds_eq_int]
    simp only [Formula.value, hcompare, Truth.toValue_ofBool]
  cases d with
  | postgres => rfl
  | _ => exact hnumbers _

/-- A constant is meant as its value. -/
theorem meantAs_value (v : Value) : MeantAs j d row (.value v) (d.param v) := by
  cases v with
  | bool b => exact ⟨rfl, congrArg j.truthOf (value_truthTree j d b)⟩
  | _ => exact .of_same rfl rfl

/-- Only the null constant is written as the null literal. -/
theorem written_ne_null {a : Assertion} (h : a.isNull = false) :
    a.written e d row false ≠ .null := by
  unfold Assertion.written
  cases a with
  | column => simp [Assertion.layout]
  | value v =>
    cases v with
    | null => cases h
    | _ => simp [Assertion.layout]
  | binary =>
    unfold Assertion.layout
    split <;> simp
  | not =>
    unfold Assertion.layout
    split <;> simp [Assertion.boolTest]
  | isIn =>
    unfold Assertion.layout
    split <;> simp

/-- An assertion that is null is the null constant. -/
theorem eq_null_of_isNull {a : Assertion} (h : a.isNull = true) : a = .value .null := by
  cases a with
  | value v => rw [Value.isNull_iff.mp h]
  | _ => cases h

/-- A comparison for equality with a null constant is meant as a test for absence. -/
theorem value_nullTest {op : BinaryOp} (hop : op.isEquality = true) (w : Layout Value) :
    ((Layout.binary op w .null).tree d).value j d =
      (nullTest op ((w.tree d).value j d)).toValue d := by
  cases op <;> first | rfl | cases hop

/-- A comparison with something other than the null literal compares the values of its operands. -/
theorem value_comparison {op : BinaryOp} (hop : op.isLogical = false) {w u : Layout Value}
    (hu : op.isEquality = true → u ≠ .null) :
    ((Layout.binary op w u).tree d).value j d =
      (j.compare op ((w.tree d).value j d) ((u.tree d).value j d)).toValue d := by
  simp only [Layout.tree, hop, Bool.false_eq_true, if_false, Layout.compareTree_of_ne_null hu]
  rfl

/-- The value of a comparison: a null test if one side is the null literal, and otherwise what the
engine says. -/
theorem binaryValue_comparison {op : BinaryOp} (hop : op.isLogical = false) (m n : Bool)
    (v w : Value) : Term.binaryValue j d op m n v w =
      if op.isEquality && n then (nullTest op v).toValue d
      else if op.isEquality && m then (nullTest op w).toValue d
      else (j.compare op v w).toValue d := by
  cases op <;> first | rfl | cases hop

/-- A connective is meant as the connective of what its parts are meant as. -/
theorem meantAs_connective {op : BinaryOp} (hop : op.isLogical = true) {a b : Assertion}
    {v w : Value} (ha : MeantAs j d row a v) (hb : MeantAs j d row b w) :
    MeantAs j d row (.binary op a b) (Term.binaryValue j d op a.isNull b.isNull v w) := by
  refine .of_same rfl ?_
  cases op with
  | and =>
    show ((j.truthOf (((a.written e d row true).tree d).value j d)).and
      (j.truthOf (((b.written e d row true).tree d).value j d))).toValue d = _
    rw [ha.truth, hb.truth]
    rfl
  | or =>
    show ((j.truthOf (((a.written e d row true).tree d).value j d)).or
      (j.truthOf (((b.written e d row true).tree d).value j d))).toValue d = _
    rw [ha.truth, hb.truth]
    rfl
  | _ => cases hop

/-- A comparison is meant as the comparison of what its operands are meant as. -/
theorem meantAs_comparison {op : BinaryOp} (hop : op.isLogical = false) {a b : Assertion}
    {v w : Value} (ha : MeantAs j d row a v) (hb : MeantAs j d row b w) :
    MeantAs j d row (.binary op a b) (Term.binaryValue j d op a.isNull b.isNull v w) := by
  refine .of_same rfl ?_
  have hwritten : (Assertion.binary op a b).written e d row false =
      if op.isEquality && a.isNull && !b.isNull then
        .binary op (b.written e d row false) (a.written e d row false)
      else .binary op (a.written e d row false) (b.written e d row false) := by
    rw [Assertion.written, Assertion.layout, hop]
    rfl
  rw [hwritten, binaryValue_comparison hop]
  cases hright : op.isEquality && b.isNull with
  | true =>
    obtain ⟨heq, hb'⟩ := Bool.and_eq_true_iff.mp hright
    rw [if_neg (by simp [hb']), if_pos rfl, eq_null_of_isNull hb']
    exact (value_nullTest heq _).trans (by rw [ha.value])
  | false =>
    cases hleft : op.isEquality && a.isNull with
    | true =>
      obtain ⟨heq, ha'⟩ := Bool.and_eq_true_iff.mp hleft
      have hb' : b.isNull = false := by simpa [heq] using hright
      rw [if_pos (by simp [hb']), if_neg Bool.false_ne_true, if_pos rfl, eq_null_of_isNull ha']
      exact (value_nullTest heq _).trans (by rw [hb.value])
    | false =>
      have hne : op.isEquality = true → b.written e d row false ≠ .null := by
        intro heq
        exact written_ne_null (by simpa [heq] using hright)
      rw [if_neg Bool.false_ne_true, if_neg Bool.false_ne_true, Bool.false_and,
        if_neg Bool.false_ne_true, value_comparison hop hne, ha.value, hb.value]

/-- A comparison or a connective is meant as one of what its operands are meant as. -/
theorem meantAs_binary (op : BinaryOp) {a b : Assertion} {v w : Value}
    (ha : MeantAs j d row a v) (hb : MeantAs j d row b w) :
    MeantAs j d row (.binary op a b) (Term.binaryValue j d op a.isNull b.isNull v w) := by
  cases hop : op.isLogical with
  | true => exact meantAs_connective hop ha hb
  | false => exact meantAs_comparison hop ha hb

/-- A negation is meant as the negation of what its operand is meant as. -/
theorem meantAs_not {a : Assertion} {v : Value} (ha : MeantAs j d row a v) :
    MeantAs j d row (.not a) ((j.truthOf v).not.toValue d) := by
  refine .of_same rfl ?_
  unfold Assertion.written Assertion.layout
  split
  next name hname =>
    obtain rfl := Sql.column_of_boolColumn hname
    have hbool : e.isBoolColumn name = true := by simpa [Assertion.boolColumn?] using hname
    obtain rfl : d.param (row.get name) = v := ha.value
    show (j.compare .eq (d.param (row.get name)) (d.boolValue false)).toValue d = _
    rw [(compare_boolColumn row hbool).2]
  next =>
    show ((j.truthOf (((a.written e d row true).tree d).value j d)).not).toValue d = _
    rw [ha.truth]

/-- A membership test is meant as the test of what its item is meant as. -/
theorem meantAs_isIn {a : Assertion} {v : Value} (ha : MeantAs j d row a v) (items : List Value) :
    MeantAs j d row (.isIn a items) ((j.isIn v (items.map d.param)).toValue d) := by
  refine .of_same rfl ?_
  unfold Assertion.written Assertion.layout
  split
  next hempty =>
    obtain rfl := List.isEmpty_iff.mp hempty
    exact value_truthTree j d false
  next =>
    show (j.isIn (((a.written e d row false).tree d).value j d) (items.map d.param)).toValue d = _
    rw [ha.value]

/-- The null literal, in parentheses or without, has the null value. -/
theorem value_of_isNullLiteral {t : Term} (h : t.isNullLiteral = true) :
    t.value j d row = .null := by
  induction t using Term.isNullLiteral.induct with
  | case1 => rfl
  | case2 t ih => exact ih h
  | case3 t hnull hgroup =>
    cases t with
    | group t => exact (hgroup t rfl).elim
    | literal l =>
      cases l with
      | null => exact (hnull rfl).elim
      | _ => cases h
    | _ => cases h

/-- An accepted term becomes an assertion that is meant as its value. The null literal is no truth
value, so the equality that a truth test becomes is not a test for absence. -/
theorem meantAs_term {t : Term} (h : t.Accepted) (htests : t.TestsTruths j d row) :
    MeantAs j d row t.assertion (t.value j d row) := by
  induction h with
  | column path => exact meantAs_column _
  | literal | negative => exact meantAs_value _
  | group _ ih => exact ih htests
  | binary op hleft hright ihl ihr =>
    have hbinary := meantAs_binary op (ihl htests.1) (ihr htests.2)
    rw [Term.isNull_assertion hleft, Term.isNull_assertion hright] at hbinary
    exact hbinary
  | not _ ih => exact meantAs_not (ih htests)
  | isNull negated _ ih =>
    have htest (op : BinaryOp) := meantAs_binary op (ih htests) (meantAs_value .null)
    cases negated with
    | false => exact htest .eq
    | true => exact htest .ne
  | @isTruth t b ht ih =>
    obtain ⟨hinner, b', hb'⟩ := htests
    have hnull : t.assertion.isNull = false := by
      rw [Term.isNull_assertion ht]
      cases hliteral : t.isNullLiteral with
      | false => rfl
      | true =>
        rw [value_of_isNullLiteral hliteral] at hb'
        cases d <;> cases hb'
    have hequal := meantAs_binary .eq (ih hinner) (meantAs_value (.bool b))
    have hvalue : Term.binaryValue j d .eq t.assertion.isNull (Assertion.value (.bool b)).isNull
        (t.value j d row) (d.param (.bool b)) = (Term.isTruth b t).value j d row := by
      rw [hnull, Term.value, hb', Sql.truthOf_boolValue]
      show (j.compare .eq (d.boolValue b') (d.boolValue b)).toValue d = _
      rw [Sql.Engine.compare_boolValue, Truth.toValue_ofBool]
      cases b' <;> cases b <;> rfl
    exact hvalue ▸ hequal
  | @inList t negated ht items ih =>
    have hin := meantAs_isIn (ih htests) (items.map Term.itemConstant)
    rw [List.map_map] at hin
    cases negated with
    | false => exact hin
    | true =>
      have hnot := meantAs_not hin
      rw [Sql.truthOf_toValue] at hnot
      exact hnot

end Meaning

/-! ## Plans -/

/-- How the condition of a row is written for a term. -/
def Term.written (t : Term) (e : Entity) (d : Dialect) (row : Record e) : Layout Value :=
  t.assertion.written e d row true

/-- Whether the comparisons of a term are grouped in the condition that is written for it: none has
on its right another test without parentheses, and on its left a negation. -/
def Term.isGrouped (t : Term) (e : Entity) (d : Dialect) : Bool :=
  (t.assertion.layout e (fun _ => ()) (fun _ => ()) true).isGrouped d

/-- Whether what is written for a term is grouped does not depend on the row. -/
theorem isGrouped_written (t : Term) (d : Dialect) (row : Record e) :
    (t.written e d row).isGrouped d = t.isGrouped e d := by
  rw [Term.isGrouped, Term.written, Assertion.written, ← Layout.isGrouped_map fun _ => (),
    Assertion.map_layout]

/-- The plan of a query with a sole predicate comes from a walk over the predicate. -/
theorem planQuery_filter {d : Dialect} {x : Expr} {plan : Plan}
    (h : d.planQuery e (.call .filter [.source, x.toLambda]) = .ok plan) :
    ∃ draft, Query.visit e true x (Draft.ofBound []) = .ok draft ∧
      plan.fragment = NullTest.finish (d.write draft.tokens) ∧
      plan.params = draft.values.map d.param := by
  obtain ⟨draft, hdraft, rfl⟩ := planQuery_eq_ok.mp h
  rw [Query.visit_filter _ rfl] at hdraft
  obtain ⟨d₁, hsource, hdraft⟩ := bind_eq_ok.mp hdraft
  obtain ⟨d₂, hvisit, hdraft⟩ := bind_eq_ok.mp hdraft
  rw [Query.visit] at hsource
  cases hsource
  cases hdraft
  rw [Expr.toLambda, Query.visit] at hvisit
  exact ⟨d₂, hvisit, rfl, rfl⟩

/-- The condition of a plan for a predicate text is read as the layout of its term: as the tree that
is meant, if and only if its comparisons are grouped. Then it has the truth value of the term on
every row where all tests for a truth value are tests of truth values. -/
theorem readFormula_term {d : Dialect} {t : Term} {x : Expr} {plan : Plan}
    (hcolumns : ∀ c ∈ e.columns, IsPlain c.name)
    (hnames : e.columns = [] → ∀ name ∈ t.names, IsPlain name) (hx : t.toExpr = .ok x)
    (h : d.planQuery e (.call .filter [.source, x.toLambda]) = .ok plan) :
    ∃ k, d.readFormula plan.fragment = some k ∧ ∀ row : Record e,
      k.map (Sql.Term.value (row.stored d) plan.params) = (t.written e d row).reading d ∧
      ((t.written e d row).reading d = (t.written e d row).tree d ↔ t.isGrouped e d = true) ∧
      (t.isGrouped e d = true → ∀ j : Judge, t.TestsTruths j d row →
        k.truthOn j d (row.stored d) plan.params = t.truth j d row) := by
  obtain ⟨haccepted, rfl⟩ := Term.accepted_of_toExpr hx
  obtain ⟨draft, hvisit, hfragment, hparams⟩ := planQuery_filter h
  obtain ⟨w, hw⟩ := Sql.visit_assertion (Sql.plainNames hcolumns hnames) hvisit
  have htokens : draft.tokens = w.tokens false := hw.tokens
  have hindices : indices (w.tokens false) = List.range (indices (w.tokens false)).length :=
    htokens ▸ Query.indices_visit hvisit
  have hmap (row : Record e) : (w.reading d).map (Sql.Term.value (row.stored d) plan.params) =
      (t.written e d row).reading d := by
    rw [← Layout.reading_map, hparams, hw.stands d row draft.values List.prefix_rfl]
    rfl
  have hread : d.readFormula plan.fragment = some (w.reading d) := by
    rw [hfragment, htokens]
    exact Layout.readFormula_layout hw.plain hindices
  refine ⟨w.reading d, hread, fun row => ⟨hmap row, ?_, fun hgrouped j htests => ?_⟩⟩
  · rw [← isGrouped_written t d row]
    exact Layout.reading_eq_tree_iff
  · rw [← isGrouped_written t d row] at hgrouped
    rw [Formula.truthOn, hmap, Layout.reading_of_isGrouped hgrouped]
    exact (meantAs_term haccepted htests).truth

/-! ## A table of users -/

open Sample (users)
open Sql (integerEngine activeUser)

/-- An engine that compares integers, for which an integer holds unless it is zero. -/
def integerJudge : Judge where
  toEngine := integerEngine
  isTrue
    | .bool b => b
    | .int n => n != 0
    | _ => false
  isTrue_bool _ := rfl
  isTrue_int b := by cases b <;> decide

/-- A column without qualification. -/
def bareColumn (name : String) : Term := .column [⟨name, none⟩]

/-- Whether someone is an adult. -/
def adult : Term := .binary (.known .gt) (bareColumn "age") (.literal (.number "18" false))

/-- `NOT (age > 18 AND email = NULL) AND active IS TRUE` -/
def reachable : Term :=
  .binary (.known .and)
    (.unary .not (.group (.binary (.known .and) adult
      (.binary (.known .eq) (bareColumn "email") (.literal .null)))))
    (.isTruth true (bareColumn "active"))

/-- A condition with a negated group and a truth test, on a row that satisfies it. -/
theorem readFormula_reachable : ∃ x plan k, reachable.toExpr = .ok x ∧
    Dialect.mySql.planQuery users (.call .filter [.source, x.toLambda]) = .ok plan ∧
    plan.fragment = "NOT (`age` > ? AND `email` IS NULL) AND `active` = ?" ∧
    Dialect.mySql.readFormula plan.fragment = some k ∧
    k.truthOn integerJudge .mySql (activeUser.stored .mySql) plan.params = .yes := by
  have hx : ∃ x, reachable.toExpr = .ok x := ⟨_, rfl⟩
  obtain ⟨x, hx⟩ := hx
  have hplan : ∃ plan, Dialect.mySql.planQuery users (.call .filter [.source, x.toLambda]) =
      .ok plan ∧ plan.fragment = "NOT (`age` > ? AND `email` IS NULL) AND `active` = ?" := by
    cases hx
    exact ⟨_, rfl, rfl⟩
  obtain ⟨plan, hplan, hfragment⟩ := hplan
  have htests : reachable.TestsTruths integerJudge .mySql activeUser :=
    ⟨⟨⟨trivial, trivial⟩, trivial, trivial⟩, trivial, true, rfl⟩
  obtain ⟨k, hk, hrows⟩ := readFormula_term (by decide) (fun h => absurd h (by decide)) hx hplan
  refine ⟨x, plan, k, hx, hplan, hfragment, hk, ?_⟩
  rw [(hrows activeUser).2.2 (by decide) integerJudge htests]
  rfl

/-- `active = (age > 18)` -/
def activeAdult : Term := .binary (.known .eq) (bareColumn "active") (.group adult)

/-- The parentheses are lost, and what is compared first is the mark of the active ones with the
age. -/
theorem misread_activeAdult : ∃ x plan k, activeAdult.toExpr = .ok x ∧
    Dialect.mySql.planQuery users (.call .filter [.source, x.toLambda]) = .ok plan ∧
    plan.fragment = "`active` = `age` > ?" ∧ Dialect.mySql.readFormula plan.fragment = some k ∧
    k.truthOn integerJudge .mySql (activeUser.stored .mySql) plan.params = .no ∧
    activeAdult.truth integerJudge .mySql activeUser = .yes := by
  have hread : Dialect.mySql.readFormula "`active` = `age` > ?" =
      some (.compare .gt (.compare .eq (.operand (.column "active")) (.operand (.column "age")))
        (.operand (.param 0))) := by decide +kernel
  exact ⟨_, ⟨"`active` = `age` > ?", [.int 18], .all, none, none, none, none⟩, _, rfl, rfl, rfl,
    hread, by decide +kernel, by decide +kernel⟩

/-- A user of twenty years who is not marked as active or otherwise. -/
def unmarkedUser : Record users where
  value
    | "age" => .int 20
    | _ => .null
  bool := by
    intro name column hbool hcolumn
    obtain ⟨c, hc, hfind, rfl⟩ := Query.declared_of_columnName (by decide) hcolumn
    have hkind : c.kind = .bool := by simpa [Entity.isBoolColumn, hfind] using hbool
    have hactive : ∀ c ∈ users.columns, c.kind = .bool → c.name = "active" := by decide
    rw [hactive c hc hkind]
    exact .inl rfl

/-- `NOT (active IS TRUE)` -/
def inactive : Term := .unary .not (.group (.isTruth true (bareColumn "active")))

/-- A test for a truth value is written as an equality, which is unknown without a truth value. -/
theorem unknown_inactive : ∃ x plan k, inactive.toExpr = .ok x ∧
    Dialect.postgres.planQuery users (.call .filter [.source, x.toLambda]) = .ok plan ∧
    plan.fragment = "NOT (\"active\" = $1)" ∧
    Dialect.postgres.readFormula plan.fragment = some k ∧
    k.truthOn integerJudge .postgres (unmarkedUser.stored .postgres) plan.params = .unknown ∧
    inactive.truth integerJudge .postgres unmarkedUser = .yes := by
  have hread : Dialect.postgres.readFormula "NOT (\"active\" = $1)" =
      some (.not (.compare .eq (.operand (.column "active")) (.operand (.param 0)))) := by
    decide +kernel
  exact ⟨_, ⟨"NOT (\"active\" = $1)", [.bool true], .all, none, none, none, none⟩, _, rfl, rfl, rfl,
    hread, by decide +kernel, by decide +kernel⟩

end SqlCompose.Predicate
