import SqlCompose.Proofs.Condition.Meaning
import SqlCompose.Proofs.Condition.Verdict

/-!
# Membership and equality

A column is among some values if it is equal to one of them. A test for membership and the comparisons
that it stands for select the same rows as long as no value is null (`Sql.selects_isIn`). A comparison
with null is a test for absence, but a null in a list is written as it stands, and it is unknown
whether anything is equal to it. So a row without a value is never found in a list, and a row that is
equal to none of the other values of a list with null is never known to be missing from it.
-/

namespace SqlCompose

/-! ## Comparisons that are joined -/

namespace Expr

/-- Whether an expression joins several ones with a connective, in their order and grouped in any
way. -/
inductive Joins (op : BinaryOp) : List Expr → Expr → Prop
  | sole (x : Expr) : Joins op [x] x
  | append {xs ys : List Expr} {x y : Expr} : Joins op xs x → Joins op ys y →
    Joins op (xs ++ ys) (.binary op x y)

/-- A chain is grouped to the left. -/
theorem joins_chain (op : BinaryOp) (x : Expr) (terms : List Expr) :
    Joins op (x :: terms) (chain op x terms) := by
  have hfold {xs : List Expr} {x : Expr} (hx : Joins op xs x) :
      Joins op (xs ++ terms) (terms.foldl (fun left right => .binary op left right) x) := by
    induction terms generalizing xs x with
    | nil => simpa using hx
    | cons y ys ih => simpa using ih (hx.append (.sole y))
  exact hfold (.sole x)

/-- The comparisons of a column with values. -/
def comparisons (op : BinaryOp) (name : String) (vs : List Value) : List Expr :=
  vs.map fun v => .binary op (.col name) (.lit v)

/-- Comparisons are joined from comparisons with fewer values. -/
theorem Joins.comparisons_induction {op o : BinaryOp} {name : String}
    {motive : List Value → Expr → Prop}
    (sole : ∀ v, motive [v] (.binary o (.col name) (.lit v)))
    (append : ∀ {vs ws x y}, motive vs x → motive ws y → motive (vs ++ ws) (.binary op x y))
    {vs : List Value} {x : Expr} (h : Joins op (comparisons o name vs) x) : motive vs x := by
  generalize hxs : comparisons o name vs = xs at h
  induction h generalizing vs with
  | sole x =>
    obtain ⟨v, rfl, rfl⟩ := List.map_eq_singleton_iff.mp hxs
    exact sole v
  | append _ _ ihx ihy =>
    obtain ⟨vs₁, vs₂, rfl, hxs, hys⟩ := List.map_eq_append_iff.mp hxs
    exact append (ihx hxs) (ihy hys)

end Expr

/-! ## What tests of a column are written with -/

/-- Whether a token is one that tests of a column with some values are written with. -/
def Token.Tests (column : String) (ops : List BinaryOp) (vs : List Value) : Token → Prop
  | .ident name => name = column ∧ vs ≠ []
  | .op o => o ∈ ops
  | .null => Value.null ∈ vs
  | .param _ | .word _ | .truth _ => True

/-- Whether a draft is written with tests of a column with some values. -/
def Draft.Tests (column : String) (ops : List BinaryOp) (vs : List Value) (d : Draft) : Prop :=
  ∀ t ∈ d.tokens, t.Tests column ops vs

namespace Query

/-- Whether a walk over a predicate ends with a draft, and writes nothing but tests of a column. -/
def WritesTests (e : Entity) (column : String) (ops : List BinaryOp) (vs : List Value) (x : Expr) :
    Prop :=
  ∀ d : Draft, d.Tests column ops vs →
    ∃ d', visit e true x d = .ok d' ∧ d'.Tests column ops vs

variable {e : Entity} {name column : String} {ops : List BinaryOp} {vs : List Value}

/-- A token of tests of a column keeps a draft one of such tests. -/
theorem tests_put {d : Draft} {t : Token} (hd : d.Tests column ops vs)
    (ht : t.Tests column ops vs) : (d.put t).Tests column ops vs := by
  intro u hu
  rcases List.mem_append.mp hu with hu | hu
  · exact hd u hu
  · exact List.mem_singleton.mp hu ▸ ht

/-- A value is written as a null operand or as a parameter. -/
theorem tests_value {d : Draft} {v : Value} (hd : d.Tests column ops vs) (hv : v ∈ vs)
    (hscalar : v = .null ∨ v.isScalar = true) :
    ∃ d', d.value v = .ok d' ∧ d'.Tests column ops vs := by
  rcases hscalar with rfl | hscalar
  · exact ⟨_, rfl, tests_put hd hv⟩
  · exact ⟨_, Draft.value_eq_ok.mpr (.inr ⟨hscalar, rfl⟩), tests_put hd trivial⟩

/-- A list of values binds only those values. -/
theorem tests_valueList {d : Draft} {ws : List Value} (hd : d.Tests column ops vs)
    (hws : ∀ w ∈ ws, w ∈ vs ∧ (w = .null ∨ w.isScalar = true)) :
    ∃ d', d.valueList ws = .ok d' ∧ d'.Tests column ops vs := by
  induction ws generalizing d with
  | nil => exact ⟨d, rfl, hd⟩
  | cons w ws ih =>
    obtain ⟨⟨hw, hscalar⟩, hrest⟩ := List.forall_mem_cons.mp hws
    obtain ⟨d₁, h₁, hd₁⟩ := tests_value hd hw hscalar
    cases ws with
    | nil => exact ⟨d₁, h₁, hd₁⟩
    | cons w' ws =>
      obtain ⟨d₂, h₂, hd₂⟩ := ih (tests_put (t := .word ", ") hd₁ trivial) hrest
      exact ⟨d₂, bind_eq_ok.mpr ⟨d₁, h₁, h₂⟩, hd₂⟩

/-- A comparison of the column with a value is a test of it. -/
theorem writesTests_comparison {o : BinaryOp} (ho : o.isLogical = false)
    (hcolumn : e.columnName name = .ok column) (hops : o ∈ ops) {v : Value} (hv : v ∈ vs)
    (hscalar : v = .null ∨ v.isScalar = true) :
    WritesTests e column ops vs (.binary o (.col name) (.lit v)) := by
  intro d hd
  have hname : Token.Tests column ops vs (.ident column) := ⟨rfl, List.ne_nil_of_mem hv⟩
  have hleft := tests_put (t := .op o) (tests_put (d := d.begun false) hd hname) hops
  obtain ⟨d', hvalue, hd'⟩ := tests_value hleft hv hscalar
  have hswap : Expr.nullComesFirst o (.col name) (.lit v) = .ok false := by
    cases o <;> rfl
  refine ⟨d', ?_, hd'⟩
  rw [visit_binary, hswap, ho]
  simp only [Expr.col, Expr.lit]
  refine bind_eq_ok.mpr ⟨false, rfl, bind_eq_ok.mpr ⟨(d.begun false).put (.ident column), ?_,
    bind_eq_ok.mpr ⟨d', ?_, rfl⟩⟩⟩
  · rw [if_neg nofun, visit_column, hcolumn]
    rfl
  · rw [if_neg nofun, visit_constant]
    exact hvalue

/-- A connective of tests writes nothing but tests. -/
theorem writesTests_binary {op : BinaryOp} (hop : op.isLogical = true) (hops : op ∈ ops) {x y : Expr}
    (hx : WritesTests e column ops vs x) (hy : WritesTests e column ops vs y) :
    WritesTests e column ops vs (.binary op x y) := by
  intro d hd
  have hbegun : (d.begun d.nested).Tests column ops vs := by
    cases d.nested with
    | false => exact hd
    | true => exact tests_put (d := d.setNested true) (t := .word "(") hd trivial
  obtain ⟨d₁, h₁, hd₁⟩ := hx _ hbegun
  obtain ⟨d₂, h₂, hd₂⟩ := hy (d₁.put (.op op)) (tests_put hd₁ hops)
  have hended : (d₂.ended d.nested).Tests column ops vs := by
    cases d.nested with
    | false => exact hd₂
    | true => exact tests_put (t := .word ")") hd₂ trivial
  have hswap : Expr.nullComesFirst op x y = .ok false := by
    cases op <;> first | rfl | cases hop
  refine ⟨_, ?_, hended⟩
  rw [visit_binary, hswap, hop]
  exact bind_eq_ok.mpr ⟨false, rfl, bind_eq_ok.mpr ⟨d₁, h₁, bind_eq_ok.mpr ⟨d₂, h₂, rfl⟩⟩⟩

/-- A membership test of the column writes nothing but tests. -/
theorem writesTests_isIn {collection : Expr} (hcolumn : e.columnName name = .ok column)
    (hitems : collection.items = .ok vs) (hvs : ∀ v ∈ vs, v = .null ∨ v.isScalar = true) :
    WritesTests e column ops vs ((Expr.col name).isIn collection) := by
  intro d hd
  rw [Expr.isIn, visit_contains]
  by_cases hempty : vs = []
  · subst hempty
    exact ⟨_, bind_eq_ok.mpr ⟨[], hitems, rfl⟩, tests_put (t := .truth false) hd trivial⟩
  · have hname : Token.Tests column ops vs (.ident column) := ⟨rfl, hempty⟩
    have hopened := tests_put (t := .word " IN (") (tests_put (d := d.setNested true) hd hname) trivial
    obtain ⟨d', hlist, hd'⟩ := tests_valueList hopened fun v hv => ⟨hv, hvs v hv⟩
    refine ⟨d'.put (.word ")"), bind_eq_ok.mpr ⟨vs, hitems, ?_⟩, tests_put hd' trivial⟩
    rw [if_neg (by simpa using hempty)]
    exact bind_eq_ok.mpr ⟨column, hcolumn, bind_eq_ok.mpr ⟨d', hlist, rfl⟩⟩

/-- A negated test writes nothing but tests. -/
theorem writesTests_negate {x : Expr} (hx : WritesTests e column ops vs x)
    (hcolumn : ∀ name, x ≠ .column name) : WritesTests e column ops vs x.negate := by
  intro d hd
  have hopened : ((d.put (.word "NOT (")).setNested false).Tests column ops vs :=
    tests_put (t := .word "NOT (") hd trivial
  obtain ⟨d', h, hd'⟩ := hx _ hopened
  have hnone : visit.negatedColumn? e x = none := by
    cases x with
    | column name => exact absurd rfl (hcolumn name)
    | _ => rfl
  refine ⟨_, ?_, tests_put (d := d'.setNested true) (t := .word ")") hd' trivial⟩
  rw [Expr.negate, visit_not, hnone]
  exact bind_eq_ok.mpr ⟨d', h, rfl⟩

/-- Comparisons joined in any grouping write nothing but tests. -/
theorem writesTests_joins {op o : BinaryOp} (hop : op.isLogical = true) (ho : o.isLogical = false)
    (hcolumn : e.columnName name = .ok column) (hvs : ∀ v ∈ vs, v = .null ∨ v.isScalar = true)
    {x : Expr} (h : Expr.Joins op (Expr.comparisons o name vs) x) :
    WritesTests e column [op, o] vs x := by
  have hpart {ws : List Value} {x : Expr} (h : Expr.Joins op (Expr.comparisons o name ws) x) :
      ws ⊆ vs → WritesTests e column [op, o] vs x := by
    refine h.comparisons_induction (motive := fun ws x => ws ⊆ vs → WritesTests e column [op, o] vs x)
      (fun v hv => ?_) (fun hx hy hsub => ?_)
    · have hv := hv (List.mem_singleton_self v)
      exact writesTests_comparison ho hcolumn (by simp) hv (hvs v hv)
    · obtain ⟨hleft, hright⟩ := List.append_subset.mp hsub
      exact writesTests_binary hop (by simp) (hx hleft) (hy hright)
  exact hpart h fun _ hv => hv

end Query

/-! ## Verdicts of tests -/

namespace Sql

open SqlCompose.Expr (Joins comparisons)

variable {d : Dialect} {e : Entity} {name column : String} {ops : List BinaryOp} {vs : List Value}

/-- The only name in tests of a column is that of the column. -/
theorem of_mem_identNames {draft : Draft} (h : draft.Tests column ops vs) {name : String}
    (hname : name ∈ identNames draft.tokens) : name = column ∧ vs ≠ [] := by
  obtain ⟨t, ht, hsome⟩ := List.mem_filterMap.mp hname
  have htest := h t ht
  cases t with
  | ident name' =>
    cases hsome
    exact htest
  | _ => cases hsome

/-- Tests of a column that is unmarked, and not exposed in tests for presence, have their truth value
as the verdict on every row. -/
theorem verdict_tests {p : Filter e} (h : Query.WritesTests e column ops vs p.toExpr)
    (hmark : vs ≠ [] → IsUnmarked column.toList)
    (hfree : .ne ∈ ops → .null ∈ vs → settledName? column = none) (g : Engine) (row : Record e) :
    d.verdict g row p.toExpr = some (p.bareTruth g d row) := by
  obtain ⟨draft, hdraft, htests⟩ := h Draft.empty (by simp [Draft.Tests, Draft.empty, Draft.ofBound])
  refine verdict_eq hdraft (fun name hname => ?_) ?_ g row
  · obtain ⟨rfl, hne⟩ := of_mem_identNames htests hname
    exact hmark hne
  · refine Bool.eq_false_iff.mpr fun hexposed => ?_
    obtain ⟨name, hname, hsettled, hop, hnull⟩ := of_exposesName hexposed
    rw [identNames_writeTests] at hname
    obtain ⟨rfl, -⟩ := of_mem_identNames htests hname
    have hop := htests _ ((mem_writeTests hop).resolve_right (by simp))
    have hnull := htests _ ((mem_writeTests hnull).resolve_right (by simp))
    simp [hfree hop hnull] at hsettled

/-! ## What tests mean -/

/-- Whether values that are present are unequal exactly if they are not equal. -/
def Engine.Complements (g : Engine) : Prop := ∀ v w, g.holds .ne v w = !g.holds .eq v w

/-- Where unequal means not equal, a comparison for inequality holds when the one for equality
fails. -/
theorem Engine.Complements.compare_ne {g : Engine} (hg : g.Complements) (v w : Value) :
    g.compare .ne v w = .yes ↔ g.compare .eq v w = .no := by
  unfold Engine.compare
  split
  · simp
  · rw [hg]
    cases g.holds .eq v w <;> decide

/-- Comparisons that are joined are those of a predicate, of which all holds that single comparisons
have and joining keeps. -/
theorem exists_filter_joins {op o : BinaryOp} (ho : o.isLogical = false)
    (join : Filter e → Filter e → Filter e)
    (hjoin : ∀ p q, (join p q).toExpr = .binary op p.toExpr q.toExpr)
    {motive : List Value → Filter e → Prop}
    (sole : ∀ v, motive [v] (.compare o ho (.column name) (.constant v)))
    (append : ∀ {vs ws p q}, motive vs p → motive ws q → motive (vs ++ ws) (join p q))
    {x : Expr} (h : Joins op (comparisons o name vs) x) : ∃ p, p.toExpr = x ∧ motive vs p := by
  refine h.comparisons_induction (motive := fun vs x => ∃ p : Filter e, p.toExpr = x ∧ motive vs p)
    (fun v => ⟨_, rfl, sole v⟩) ?_
  rintro vs ws _ _ ⟨p, rfl, hp⟩ ⟨q, rfl, hq⟩
  exact ⟨join p q, hjoin p q, append hp hq⟩

/-- Joined with OR, comparisons hold if one of them does. -/
theorem exists_filter_or {o : BinaryOp} (ho : o.isLogical = false) {x : Expr}
    (h : Joins .or (comparisons o name vs) x) :
    ∃ p : Filter e, p.toExpr = x ∧ ∀ g d row, p.bareTruth g d row = .yes ↔
      ∃ v ∈ vs, comparisonTruth g d row false o (.column name) (.constant v) = .yes := by
  refine exists_filter_joins ho .or (fun _ _ => rfl) (motive := fun vs p => ∀ g d row,
    p.bareTruth g d row = .yes ↔
      ∃ v ∈ vs, comparisonTruth g d row false o (.column name) (.constant v) = .yes)
    (fun v g d row => ?_) ?_ h
  · simp [Filter.bareTruth, Filter.eval, Operand.isBareNull]
  · intro vs ws p q hp hq g d row
    have hor : (Filter.or p q).bareTruth g d row = .yes ↔
        p.bareTruth g d row = .yes ∨ q.bareTruth g d row = .yes := Truth.or_eq_yes
    simp only [hor, hp, hq, List.mem_append, or_and_right, exists_or]

/-- Joined with AND, comparisons hold if all of them do. -/
theorem exists_filter_and {o : BinaryOp} (ho : o.isLogical = false) {x : Expr}
    (h : Joins .and (comparisons o name vs) x) :
    ∃ p : Filter e, p.toExpr = x ∧ ∀ g d row, p.bareTruth g d row = .yes ↔
      ∀ v ∈ vs, comparisonTruth g d row false o (.column name) (.constant v) = .yes := by
  refine exists_filter_joins ho .and (fun _ _ => rfl) (motive := fun vs p => ∀ g d row,
    p.bareTruth g d row = .yes ↔
      ∀ v ∈ vs, comparisonTruth g d row false o (.column name) (.constant v) = .yes)
    (fun v g d row => ?_) ?_ h
  · simp [Filter.bareTruth, Filter.eval, Operand.isBareNull]
  · intro vs ws p q hp hq g d row
    have hand : (Filter.and p q).bareTruth g d row = .yes ↔
        p.bareTruth g d row = .yes ∧ q.bareTruth g d row = .yes := Truth.and_eq_yes
    simp only [hand, hp, hq, List.forall_mem_append]

section

variable {g : Engine} {row : Record e} {v : Value}

/-- A comparison of a column with null is a test for absence or presence, and with another value the
engine's. -/
theorem comparisonTruth_column (hcolumn : e.columnName name = .ok column) {o : BinaryOp}
    (ho : o.isEquality = true) :
    comparisonTruth g d row false o (.column name) (.constant v) =
      if v.isNull then nullTest o (row.value column)
      else g.compare o (row.stored d column) (d.param v) := by
  simp [comparisonTruth, Operand.isNull, Operand.value, ho, Record.stored,
    row.get_of_columnName hcolumn]

/-- When a column equals a value: both are null, or the engine says so. -/
theorem comparison_eq_yes (hcolumn : e.columnName name = .ok column) :
    comparisonTruth g d row false .eq (.column name) (.constant v) = .yes ↔
      v = .null ∧ row.value column = .null ∨
        g.compare .eq (row.stored d column) (d.param v) = .yes := by
  rw [comparisonTruth_column hcolumn rfl]
  cases v with
  | null => simp [Value.isNull, nullTest, Truth.ofBool, ← Value.isNull_iff, Dialect.param]
  | _ => simp [Value.isNull]

/-- When a column differs from a value: the value alone is null, or the engine says that they are
not equal. -/
theorem comparison_ne_yes (hcolumn : e.columnName name = .ok column) (hg : g.Complements) :
    comparisonTruth g d row false .ne (.column name) (.constant v) = .yes ↔
      v = .null ∧ row.value column ≠ .null ∨
        g.compare .eq (row.stored d column) (d.param v) = .no := by
  rw [comparisonTruth_column hcolumn rfl, ← hg.compare_ne]
  cases v with
  | null => simp [Value.isNull, nullTest, Truth.ofBool, ← Value.isNull_iff, Dialect.param]
  | _ => simp [Value.isNull]

/-- A test for membership is a comparison with each of the values. -/
theorem bareTruth_isIn (hcolumn : e.columnName name = .ok column) {collection : Expr}
    (hitems : collection.items = .ok vs) :
    (Filter.isIn (.column name) collection : Filter e).bareTruth g d row =
      .any (vs.map fun v => g.compare .eq (row.stored d column) (d.param v)) := by
  have hvalues : itemValues collection = vs := by simp [itemValues, hitems, Except.toOption]
  have hget : row.get name = row.value column := row.get_of_columnName hcolumn
  rw [Filter.bareTruth, Filter.eval, hvalues, Operand.value, hget]
  cases vs with
  | nil => rfl
  | cons v vs =>
    rw [if_neg (by simp), Engine.isIn, List.map_map]
    rfl

/-- Of values that are present it is known whether the engine finds them equal. -/
theorem compare_ne_unknown (hrow : row.value column ≠ .null) (hv : v ≠ .null) :
    g.compare .eq (row.stored d column) (d.param v) ≠ .unknown := by
  have hpresent : ((row.stored d column).isNull || (d.param v).isNull) = false := by
    rw [Record.stored, isNull_param, isNull_param, Bool.or_eq_false_iff, Bool.eq_false_iff,
      Bool.eq_false_iff, Ne, Ne, Value.isNull_iff, Value.isNull_iff]
    exact ⟨hrow, hv⟩
  rw [Engine.compare, hpresent]
  exact Truth.ofBool_ne_unknown _

/-- A comparison with a column that holds nothing is unknown. -/
theorem compare_absent (hrow : row.value column = .null) :
    g.compare .eq (row.stored d column) (d.param v) = .unknown := by
  rw [Record.stored, hrow]
  exact g.null_compare .eq _

/-- One of the comparisons holds exactly if the value is found in the list, except where the column is
absent and null is in the list. -/
theorem found_iff_one :
    ((∃ v ∈ vs, g.compare .eq (row.stored d column) (d.param v) = .yes) ↔
      ∃ v ∈ vs, v = .null ∧ row.value column = .null ∨
        g.compare .eq (row.stored d column) (d.param v) = .yes) ↔
    ¬ (.null ∈ vs ∧ row.value column = .null) := by
  constructor
  · rintro hiff ⟨hnull, hrow⟩
    obtain ⟨v, -, hv⟩ := hiff.mpr ⟨.null, hnull, .inl ⟨rfl, hrow⟩⟩
    rw [compare_absent hrow] at hv
    cases hv
  · refine fun hnot => ⟨fun ⟨v, hv, heq⟩ => ⟨v, hv, .inr heq⟩, ?_⟩
    rintro ⟨v, hv, ⟨rfl, hrow⟩ | heq⟩
    · exact absurd ⟨hv, hrow⟩ hnot
    · exact ⟨v, hv, heq⟩

/-- All of the comparisons hold exactly if the value is known not to be in the list, except where
null is in the list and the column is present and equal to none of the other values. There all
comparisons hold, but not the one of the list with its null. -/
theorem missed_iff_all :
    ((∀ v ∈ vs, g.compare .eq (row.stored d column) (d.param v) = .no) ↔
      ∀ v ∈ vs, v = .null ∧ row.value column ≠ .null ∨
        g.compare .eq (row.stored d column) (d.param v) = .no) ↔
    (.null ∈ vs → row.value column = .null ∨
      ∃ v ∈ vs, g.compare .eq (row.stored d column) (d.param v) = .yes) := by
  have hnever : g.compare .eq (row.stored d column) (d.param .null) = .unknown :=
    g.compare_null .eq _
  constructor
  · intro hiff hnull
    by_contra hnone
    obtain ⟨hrow, hnone⟩ := not_or.mp hnone
    have hall : ∀ v ∈ vs, v = .null ∧ row.value column ≠ .null ∨
        g.compare .eq (row.stored d column) (d.param v) = .no := by
      intro v hv
      by_cases hvnull : v = .null
      · exact .inl ⟨hvnull, hrow⟩
      · cases heq : g.compare .eq (row.stored d column) (d.param v) with
        | no => exact .inr rfl
        | unknown => exact absurd heq (compare_ne_unknown hrow hvnull)
        | yes => exact absurd ⟨v, hv, heq⟩ hnone
    have hno := hiff.mpr hall .null hnull
    rw [hnever] at hno
    cases hno
  · refine fun hcond => ⟨fun hno v hv => .inr (hno v hv), fun hall v hv => ?_⟩
    refine (hall v hv).resolve_left ?_
    rintro ⟨rfl, hrow⟩
    obtain ⟨w, hw, heq⟩ := (hcond hv).resolve_left hrow
    rcases hall w hw with ⟨rfl, -⟩ | hno
    · rw [hnever] at heq
      cases heq
    · rw [hno] at heq
      cases heq

end

/-! ## Membership -/

/-- A test for membership in the empty list holds of no row, and its negation of every row. In another
list, a column is found if one of the comparisons with its values holds, unless the column is absent
and null is in the list; the negation holds if all of the comparisons for inequality do, unless null
is in the list and the column is present and equal to none of the values. A column must not be marked
nor, where null is in the list, exposed. -/
theorem selects_isIn {collection : Expr} (hcolumn : e.columnName name = .ok column)
    (hmark : vs ≠ [] → IsUnmarked column.toList) (hitems : collection.items = .ok vs)
    (hvs : ∀ v ∈ vs, v = .null ∨ v.isScalar = true) {g : Engine} (hg : g.Complements)
    (row : Record e) :
    (vs = [] → d.verdict g row ((Expr.col name).isIn collection) = some .no ∧
      d.verdict g row ((Expr.col name).isIn collection).negate = some .yes) ∧
    (∀ either, Joins .or (comparisons .eq name vs) either →
      (d.verdict g row ((Expr.col name).isIn collection)).isSome = true ∧
      (d.verdict g row either).isSome = true ∧
      ((d.Selects g row ((Expr.col name).isIn collection) ↔ d.Selects g row either) ↔
        ¬ (.null ∈ vs ∧ row.value column = .null))) ∧
    ∀ every, Joins .and (comparisons .ne name vs) every →
      (.null ∈ vs → settledName? column = none) →
      (d.verdict g row ((Expr.col name).isIn collection).negate).isSome = true ∧
      (d.verdict g row every).isSome = true ∧
      ((d.Selects g row ((Expr.col name).isIn collection).negate ↔ d.Selects g row every) ↔
        (.null ∈ vs → row.value column = .null ∨
          ∃ v ∈ vs, g.compare .eq (row.stored d column) (d.param v) = .yes)) := by
  have hwrites : Query.WritesTests e column [] vs ((Expr.col name).isIn collection) :=
    Query.writesTests_isIn hcolumn hitems hvs
  have hin : d.verdict g row ((Expr.col name).isIn collection) =
      some (.any (vs.map fun v => g.compare .eq (row.stored d column) (d.param v))) := by
    rw [← bareTruth_isIn hcolumn hitems]
    exact verdict_tests (p := .isIn (.column name) collection) hwrites hmark nofun g row
  have hnot : d.verdict g row ((Expr.col name).isIn collection).negate =
      some (Truth.any (vs.map fun v => g.compare .eq (row.stored d column) (d.param v))).not := by
    rw [← bareTruth_isIn hcolumn hitems]
    exact verdict_tests (p := .not (.isIn (.column name) collection))
      (Query.writesTests_negate hwrites nofun) hmark nofun g row
  refine ⟨?_, fun either heither => ?_, fun every hevery hfree => ?_⟩
  · rintro rfl
    exact ⟨hin, hnot⟩
  · obtain ⟨p, rfl, hp⟩ := exists_filter_or (e := e) rfl heither
    have hor := verdict_tests (d := d) (Query.writesTests_joins rfl rfl hcolumn hvs heither) hmark
      (by simp) g row
    refine ⟨by simp [hin], by simp [hor], ?_⟩
    rw [Dialect.Selects, Dialect.Selects, hin, hor, Option.some_inj, Option.some_inj, hp,
      Truth.any_eq_yes, List.mem_map]
    simp only [comparison_eq_yes hcolumn]
    exact found_iff_one
  · obtain ⟨p, rfl, hp⟩ := exists_filter_and (e := e) rfl hevery
    have hand := verdict_tests (d := d) (Query.writesTests_joins rfl rfl hcolumn hvs hevery) hmark
      (fun _ => hfree) g row
    refine ⟨by simp [hnot], by simp [hand], ?_⟩
    rw [Dialect.Selects, Dialect.Selects, hnot, hand, Option.some_inj, Option.some_inj, hp,
      Truth.not_eq_yes, Truth.any_eq_no, List.forall_mem_map]
    simp only [comparison_ne_yes hcolumn hg]
    exact missed_iff_all

/-- The engine of integers, where values that are not equal are unequal. -/
def complementaryEngine : Engine where
  holds
    | .ne, v, w => !integerEngine.holds .eq v w
    | op, v, w => integerEngine.holds op v w
  holds_eq_int _ _ := rfl
  holds_eq_bool _ _ := rfl

/-- A list of two ages and a null. -/
def someAges : List Value := [.int 20, .null, .int 30]

/-- Two ages and a null: membership selects what the joined comparisons select. -/
theorem selects_isIn_someAges : ∃ either every,
    Joins .or (comparisons .eq "age" someAges) either ∧
    Joins .and (comparisons .ne "age" someAges) every ∧
    (Dialect.postgres.Selects complementaryEngine activeUser
        ((Expr.col "age").isIn (.lit (.list someAges))) ↔
      Dialect.postgres.Selects complementaryEngine activeUser either) ∧
    (Dialect.postgres.Selects complementaryEngine activeUser
        ((Expr.col "age").isIn (.lit (.list someAges))).negate ↔
      Dialect.postgres.Selects complementaryEngine activeUser every) := by
  have hcolumn : Sample.users.columnName "age" = .ok "age" := by rfl
  have hcomplements : complementaryEngine.Complements := fun v w => rfl
  have hscalars : ∀ v ∈ someAges, v = .null ∨ v.isScalar = true := by
    simp [someAges, Value.isScalar]
  have hage : activeUser.value "age" = .int 20 := rfl
  have hitems : (Expr.lit (.list someAges)).items = .ok someAges := rfl
  obtain ⟨-, hor, hand⟩ := selects_isIn (d := .postgres) hcolumn (fun _ => by decide) hitems hscalars
    hcomplements activeUser
  refine ⟨_, _, Expr.joins_chain .or _ _, Expr.joins_chain .and _ _, ?_, ?_⟩
  · refine (hor _ (Expr.joins_chain .or _ _)).2.2.mpr ?_
    simp [hage]
  · refine (hand _ (Expr.joins_chain .and _ _) fun _ => by decide).2.2.mpr fun _ => .inr ?_
    exact ⟨.int 20, by simp [someAges], by decide +kernel⟩

/-- A user without a name is not found among the users whose name is null, although the name is equal
to null; and a user with an address is not found among those whose address is not null, although the
address is not equal to null. -/
theorem unselected_isIn_null :
    Dialect.sqlServer.planQuery Sample.users
        (.call .filter [.source, (Expr.col "name").isIn (.lit (.list [.null]))]) =
      .ok ⟨"[name] IN (NULL)", [], .all, none, none, none, none⟩ ∧
    Dialect.sqlServer.verdict complementaryEngine activeUser
        ((Expr.col "name").isIn (.lit (.list [.null]))) = some .unknown ∧
    Dialect.sqlServer.verdict complementaryEngine activeUser
        (.binary .eq (.col "name") (.lit .null)) = some .yes ∧
    Dialect.sqlServer.verdict complementaryEngine activeUser
        ((Expr.col "email").isIn (.lit (.list [.null]))).negate = some .unknown ∧
    Dialect.sqlServer.verdict complementaryEngine activeUser
        (.binary .ne (.col "email") (.lit .null)) = some .yes :=
  ⟨by rfl, by decide +kernel, by decide +kernel, by decide +kernel, by decide +kernel⟩

end Sql

end SqlCompose
