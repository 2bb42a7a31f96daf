import SqlCompose.Proofs.Condition.ClauseReading
import SqlCompose.Proofs.Condition.Filter
import SqlCompose.Proofs.Query.Walk

/-!
# Predicates are written as clauses

A walk over a predicate writes the pieces of a clause, and the clause evaluates to the truth value of
the predicate, except that a null operand under a function is overlooked on the left of a comparison
(`Sql.visit_filter`). Every clause stands for its predicate whatever values are bound later.
-/

namespace SqlCompose.Sql

open Query (visit)

variable {P : String → Prop} {e : Entity}

/-! ## Operands -/

/-- Whether an operand of SQL has the value of an operand of a query on every row, with some values
bound and whatever values follow them. -/
def Term.StandsFor (t : Term) (e : Entity) (x : Operand) (values : List Value) : Prop :=
  ∀ (d : Dialect) (row : Record e) (more : List Value), values <+: more →
    t.value (row.stored d) (more.map d.param) = d.param (x.value row)

/-- Whether the columns of some names have names of some kind in the database. -/
def Named (P : String → Prop) (e : Entity) (names : List String) : Prop :=
  ∀ name ∈ names, ∀ column, e.columnName name = .ok column → P column

/-- Whether the columns of some names have plain names in the database. -/
def PlainNames (e : Entity) (names : List String) : Prop := Named IsPlain e names

/-- A column that is looked up has a plain name if all columns have. Without columns every name is
accepted. -/
theorem plainNames {names : List String} (hcolumns : ∀ c ∈ e.columns, IsPlain c.name)
    (hnames : e.columns = [] → ∀ name ∈ names, IsPlain name) : PlainNames e names := by
  intro name hname column h
  by_cases hempty : e.columns = []
  · have hsame : e.columnName name = .ok name := by simp [Entity.columnName, hempty]
    obtain rfl : name = column := Except.ok.inj (hsame.symm.trans h)
    exact hnames hempty name hname
  · obtain ⟨c, hc, -, rfl⟩ := Query.declared_of_columnName hempty h
    exact hcolumns c hc

/-- Whether a draft has been extended by tokens and values. -/
structure Extends (d d' : Draft) (tokens : List Token) : Prop where
  tokens : d'.tokens = d.tokens ++ tokens
  values : d.values <+: d'.values
  grouped : d'.grouped = d.grouped

/-- Extensions one after the other are an extension. -/
theorem Extends.trans {d d₁ d₂ : Draft} {a b : List Token} (h : Extends d d₁ a)
    (h' : Extends d₁ d₂ b) : Extends d d₂ (a ++ b) :=
  ⟨by rw [h'.tokens, h.tokens, List.append_assoc], h.values.trans h'.values,
    h'.grouped.trans h.grouped⟩

/-- A value is written as an operand that has it. -/
theorem value_term {d d' : Draft} {v : Value} (h : d.value v = .ok d') :
    ∃ t : Term, t.Under P ∧ (t = .null ↔ v.isNull = true) ∧ Extends d d' [t.token] ∧
      d'.nested = d.nested ∧ ∀ (dialect : Dialect) (row : String → Value) (more : List Value),
        d'.values <+: more → t.value row (more.map dialect.param) = dialect.param v := by
  rcases Draft.value_eq_ok.mp h with ⟨rfl, rfl⟩ | ⟨hv, rfl⟩
  · exact ⟨.null, trivial, by simp [Value.isNull], ⟨rfl, List.prefix_rfl, rfl⟩, rfl,
      fun _ _ _ _ => rfl⟩
  · have hnull : v.isNull = false := by cases v <;> first | rfl | cases hv
    refine ⟨.param d.values.length, trivial, by simp [hnull], ⟨rfl, List.prefix_append _ _, rfl⟩,
      rfl, ?_⟩
    rintro dialect row _ ⟨rest, rfl⟩
    simp [Term.value, Draft.bind]

/-- An operand is written as one that has its value. -/
theorem visit_operand {x : Operand} (hnames : Named P e x.names) {d d' : Draft}
    (h : visit e false x.toExpr d = .ok d') :
    ∃ t : Term, t.Under P ∧ (t = .null ↔ x.isNull = true) ∧ Extends d d' [t.token] ∧
      d'.nested = d.nested ∧ t.StandsFor e x d'.values := by
  induction x with
  | column name =>
    rw [Operand.toExpr, Query.visit_column] at h
    obtain ⟨column, hcolumn, h⟩ := bind_eq_ok.mp h
    cases h
    refine ⟨.column column, hnames name (by simp [Operand.names]) column hcolumn,
      by simp [Operand.isNull], ⟨rfl, List.prefix_rfl, rfl⟩, rfl, fun dialect row more _ => ?_⟩
    simp [Term.value, Record.stored, Operand.value, Record.get, hcolumn]
  | constant v =>
    rw [Operand.toExpr, Query.visit_constant] at h
    obtain ⟨t, ht, hnull, hext, hnested, hvalue⟩ := value_term h
    exact ⟨t, ht, hnull, hext, hnested, fun dialect row more hmore => hvalue _ _ _ hmore⟩
  | captured c =>
    rw [Operand.toExpr, Query.visit_captured] at h
    obtain ⟨v, hv, h⟩ := bind_eq_ok.mp h
    have hvalue : capturedValue c = v := by simp [capturedValue, hv, Except.toOption]
    obtain ⟨t, ht, hnull, hext, hnested, hterm⟩ := value_term h
    refine ⟨t, ht, by rw [Operand.isNull, hvalue]; exact hnull, hext, hnested,
      fun dialect row more hmore => ?_⟩
    rw [Operand.value, hvalue]
    exact hterm _ _ _ hmore
  | convert x ih =>
    rw [Operand.toExpr, Expr.convert, visit] at h
    exact ih hnames h
  | lambda param x ih =>
    rw [Operand.toExpr, visit] at h
    exact ih hnames h

/-- Whether an operand is known to be null does not depend on what stands under a function. -/
theorem isNull_toExpr {x : Operand} {b : Bool} (h : x.toExpr.isNull = .ok b) :
    b = x.isBareNull := by
  induction x with
  | column | lambda => cases h; rfl
  | constant v => cases h; rfl
  | captured c =>
    obtain ⟨v, hv, h⟩ := bind_eq_ok.mp h
    cases h
    simp [Operand.isBareNull, capturedValue, hv, Except.toOption]
  | convert x ih => exact ih h

/-- The operands of a comparison change places if the left one alone is known to be null. -/
theorem nullComesFirst_toExpr {op : BinaryOp} {x y : Operand} {swap : Bool}
    (h : Expr.nullComesFirst op x.toExpr y.toExpr = .ok swap) :
    swap = (op.isEquality && x.isBareNull && !y.isBareNull) := by
  unfold Expr.nullComesFirst at h
  split at h
  next hop =>
    obtain ⟨b, hb, h⟩ := bind_eq_ok.mp h
    rw [hop, ← isNull_toExpr hb]
    cases b with
    | false => cases h; rfl
    | true =>
      obtain ⟨b', hb', h⟩ := bind_eq_ok.mp h
      cases h
      rw [← isNull_toExpr hb']
      rfl
  next hop =>
    cases h
    simp [hop]

/-! ## Parts of predicates -/

/-- Whether a clause has the truth value of a predicate on every row, with some values bound and
whatever values follow them. -/
def Clause.StandsFor (c : Clause) (p : Filter e) (values : List Value) : Prop :=
  ∀ (g : Engine) (d : Dialect) (row : Record e) (more : List Value), values <+: more →
    (c.condition d).eval g (row.stored d) (more.map d.param) = p.bareTruth g d row

/-- A clause stands for a predicate when more values are bound behind its own. -/
theorem Clause.StandsFor.more {c : Clause} {p : Filter e} {values values' : List Value}
    (h : c.StandsFor p values) (hmore : values <+: values') : c.StandsFor p values' :=
  fun g d row _ hm => h g d row _ (hmore.trans hm)

/-- The tokens of a clause. -/
def Clause.tokens (c : Clause) (nested : Bool) : List Token :=
  (c.pieces nested).flatMap Piece.tokens

/-- Whether a draft has been extended by a clause that stands for a predicate. -/
structure WrittenAs (P : String → Prop) (p : Filter e) (d d' : Draft) (c : Clause) : Prop extends
    Extends d d' (c.tokens d.nested) where
  under : c.Under P
  nested : d'.nested = true
  stands : c.StandsFor p d'.values

/-- The predicate that holds always, or never, evaluates to that. -/
theorem eval_truthCondition (g : Engine) (d : Dialect) (row : String → Value)
    (params : List Value) (b : Bool) : (truthCondition d b).eval g row params = .ofBool b := by
  cases d <;> cases b <;>
    simp [truthCondition, Condition.eval, Term.value, Engine.compare, Value.isNull,
      g.holds_eq_int]

/-- A truth value is written as a clause of its own. -/
theorem writtenAs_truth {p : Filter e} {b : Bool}
    (hp : ∀ g d row, p.bareTruth g d row = .ofBool b) (d : Draft) :
    WrittenAs P p d (d.truth b) (.truth b) where
  tokens := rfl
  values := List.prefix_rfl
  grouped := rfl
  under := trivial
  nested := rfl
  stands := fun g dialect row more _ => by
    rw [hp, Clause.condition, eval_truthCondition]

/-- The test of a column of truth values is written as a comparison. -/
theorem writtenAs_boolTest {p : Filter e} {name column : String} {b : Bool}
    (hbool : e.isBoolColumn name = true) (hcolumn : e.columnName name = .ok column)
    (hkind : P column)
    (hp : ∀ g d row, p.bareTruth g d row =
      if b then .ofValue (row.get name) else (Truth.ofValue (row.get name)).not) (d : Draft) :
    WrittenAs P p d (d.boolTest column b)
      (.compare .eq (.column column) (.param d.values.length)) where
  tokens := by
    simp [Draft.boolTest, Draft.bind, Draft.put, Clause.tokens, Clause.pieces, Piece.tokens,
      Term.token]
  values := List.prefix_append _ _
  grouped := rfl
  under := ⟨rfl, hkind, trivial⟩
  nested := rfl
  stands := by
    rintro g dialect row _ ⟨rest, rfl⟩
    rw [hp, ← compare_boolColumn g dialect row hbool hcolumn b]
    simp [Clause.condition, comparison, Condition.eval, Term.value, Draft.boolTest, Draft.bind,
      Dialect.param]

/-- Several values are written as operands that have them. -/
theorem valueList_terms {vs : List Value} {d d' : Draft} (h : d.valueList vs = .ok d') :
    ∃ ts : List Term, (∀ t ∈ ts, t.Under P) ∧ ts.length = vs.length ∧
      Extends d d' ((itemPieces ts).flatMap Piece.tokens) ∧ d'.nested = d.nested ∧
      ∀ (dialect : Dialect) (row : String → Value) (more : List Value), d'.values <+: more →
        ts.map (Term.value row (more.map dialect.param)) = vs.map dialect.param := by
  induction vs generalizing d d' with
  | nil =>
    cases h
    exact ⟨[], by simp, rfl, ⟨by simp [itemPieces], List.prefix_rfl, rfl⟩, rfl, by simp⟩
  | cons v vs ih =>
    cases vs with
    | nil =>
      obtain ⟨t, ht, -, hext, hnested, hvalue⟩ := value_term h
      exact ⟨[t], by simpa using ht, rfl, by simpa [itemPieces, Piece.tokens] using hext, hnested,
        fun dialect row more hmore => by simp [hvalue dialect row more hmore]⟩
    | cons w vs =>
      obtain ⟨d₁, h₁, h⟩ := bind_eq_ok.mp h
      obtain ⟨t, ht, -, hext, hnested, hvalue⟩ := value_term h₁
      obtain ⟨ts, hts, hlength, hext', hnested', hvalues⟩ := ih h
      obtain ⟨u, us, rfl⟩ := List.exists_cons_of_length_eq_add_one hlength
      have hput : Extends d₁ (d₁.put (.word ", ")) [.word ", "] := ⟨rfl, List.prefix_rfl, rfl⟩
      refine ⟨t :: u :: us, List.forall_mem_cons.mpr ⟨ht, hts⟩, by simpa using hlength, ?_,
        hnested'.trans hnested, fun dialect row more hmore => ?_⟩
      · have hall := (hext.trans hput).trans hext'
        simpa [itemPieces, Piece.tokens] using hall
      · have hhead := hvalue dialect row more (hext'.values.trans hmore)
        rw [List.map_cons, hhead, hvalues dialect row more hmore]
        rfl

/-- A selector that is an operand names the column that has its value. -/
theorem value_of_member {x : Operand} {column : String} (hnames : Named P e x.names)
    (h : e.member x.toExpr = .ok column) :
    P column ∧ ∀ row : Record e, x.value row = row.value column := by
  induction x with
  | column name =>
    have hcolumn : e.columnName name = .ok column := h
    refine ⟨hnames name (by simp [Operand.names]) column hcolumn, fun row => ?_⟩
    simp [Operand.value, Record.get, hcolumn]
  | constant | captured => cases h
  | convert x ih | lambda param x ih => exact ih hnames h

/-- A membership test is written as a clause. -/
theorem writtenAs_contains {collection : Expr} {x : Operand} (hnames : Named P e x.names)
    {d d' : Draft} (h : Query.contains e collection x.toExpr d = .ok d') :
    ∃ c, WrittenAs P (.isIn x collection : Filter e) d d' c := by
  obtain ⟨items, hitems, h⟩ := bind_eq_ok.mp h
  have hvalues : itemValues collection = items := by
    simp [itemValues, hitems, Except.toOption]
  split at h
  next hempty =>
    cases h
    have hno (g : Engine) (dialect : Dialect) (row : Record e) :
        (Filter.isIn x collection).bareTruth g dialect row = .ofBool false := by
      rw [Filter.bareTruth, Filter.eval, hvalues, if_pos hempty]
      rfl
    exact ⟨.truth false, writtenAs_truth hno d⟩
  next hempty =>
    obtain ⟨column, hcolumn, h⟩ := bind_eq_ok.mp h
    obtain ⟨d₁, hlist, h⟩ := bind_eq_ok.mp h
    cases h
    obtain ⟨hkind, hvalue⟩ := value_of_member hnames hcolumn
    obtain ⟨ts, hts, hlength, hext, hnested, hterms⟩ := valueList_terms hlist
    have hne : ts ≠ [] := by
      rintro rfl
      exact hempty (List.isEmpty_iff_length_eq_zero.mpr hlength.symm)
    refine ⟨.isIn column ts, ⟨?_, hext.values, hext.grouped⟩, ⟨hkind, hne, hts⟩, hnested, ?_⟩
    · simp [Draft.put, hext.tokens, Clause.tokens, Clause.pieces, Piece.tokens, Term.token,
        Draft.setNested]
    · intro g dialect row more hmore
      rw [Clause.condition, Condition.eval, hterms dialect _ more hmore, Filter.bareTruth,
        Filter.eval, hvalues, if_neg hempty, hvalue row]
      rfl

/-! ## Comparisons -/

/-- Binding a value does not make it null, nor anything else of null. -/
theorem isNull_param (d : Dialect) (v : Value) : (d.param v).isNull = v.isNull := by
  cases v with
  | bool b => cases d <;> rfl
  | _ => rfl

/-- What a comparison of operands evaluates to once it is finished. -/
theorem eval_comparison (g : Engine) (row : String → Value) (params : List Value) (op : BinaryOp)
    (x y : Term) : (comparison op x y).eval g row params =
      if op.isEquality = true ∧ y = .null then nullTest op (x.value row params)
      else g.compare op (x.value row params) (y.value row params) := by
  unfold comparison
  by_cases hy : y = .null
  · cases op <;> simp [hy, BinaryOp.isEquality, Condition.eval, Term.value]
  · simp [hy, Condition.eval]

/-- An operand stands for its value when more values are bound behind its own. -/
theorem Term.StandsFor.more {t : Term} {x : Operand} {values values' : List Value}
    (h : t.StandsFor e x values) (hmore : values <+: values') : t.StandsFor e x values' :=
  fun d row _ hm => h d row _ (hmore.trans hm)

/-- Two operands with an operator between them. -/
theorem visit_operands {op : BinaryOp} {x y : Operand} (hx : Named P e x.names)
    (hy : Named P e y.names) {d d₁ d₂ : Draft}
    (h₁ : visit e false x.toExpr (d.setNested true) = .ok d₁)
    (h₂ : visit e false y.toExpr (d₁.put (.op op)) = .ok d₂) :
    ∃ t u : Term, t.Under P ∧ u.Under P ∧ (u = .null ↔ y.isNull = true) ∧
      Extends d d₂ [t.token, .op op, u.token] ∧ d₂.nested = true ∧
      t.StandsFor e x d₂.values ∧ u.StandsFor e y d₂.values := by
  obtain ⟨t, ht, -, hext, hnested, hstands⟩ := visit_operand hx h₁
  obtain ⟨u, hu, hnull, hext', hnested', hstands'⟩ := visit_operand hy h₂
  have hop : Extends d₁ (d₁.put (.op op)) [.op op] := ⟨rfl, List.prefix_rfl, rfl⟩
  have hbegin : Extends d (d.setNested true) [] := ⟨by simp [Draft.setNested], List.prefix_rfl, rfl⟩
  exact ⟨t, u, ht, hu, hnull, ((hbegin.trans hext).trans hop).trans hext',
    hnested'.trans hnested, hstands.more hext'.values, hstands'⟩

/-- A comparison is written as its operands with the sign between them. -/
theorem tokens_compare (op : BinaryOp) (t u : Term) (nested : Bool) :
    (Clause.compare op t u).tokens nested = [t.token, .op op, u.token] := by
  by_cases hu : u = .null <;> simp [Clause.tokens, Clause.pieces, Piece.tokens, hu, Term.token]

/-- A comparison is written with its operands in their order, or a null one second. -/
theorem writtenAs_compare {op : BinaryOp} (hop : op.isLogical = false) {x y : Operand}
    (hx : Named P e x.names) (hy : Named P e y.names) {d d' : Draft}
    (h : visit e true (.binary op x.toExpr y.toExpr) d = .ok d') :
    ∃ c, WrittenAs P (.compare op hop x y : Filter e) d d' c := by
  rw [Query.visit_binary, hop] at h
  obtain ⟨swap, hswap, h⟩ := bind_eq_ok.mp h
  obtain ⟨d₁, h₁, h⟩ := bind_eq_ok.mp h
  obtain ⟨d₂, h₂, h⟩ := bind_eq_ok.mp h
  cases h
  have hswap := nullComesFirst_toExpr hswap
  cases swap with
  | true =>
    have hswap := hswap.symm
    simp only [Bool.and_eq_true, Bool.not_eq_true'] at hswap
    obtain ⟨⟨heq, hbare⟩, -⟩ := hswap
    obtain ⟨t, u, ht, hu, hnull, hext, hnested, hstands, -⟩ := visit_operands hy hx h₁ h₂
    obtain rfl := hnull.mpr (Operand.isNull_of_isBareNull hbare)
    refine ⟨.compare op t .null, ⟨?_, hext.values, hext.grouped⟩, ⟨hop, ht, hu⟩, hnested, ?_⟩
    · rw [tokens_compare]
      exact hext.tokens
    · intro g dialect row more hmore
      have hvalue : (Clause.compare op t .null).condition dialect = comparison op t .null := rfl
      rw [hvalue, eval_comparison, if_pos ⟨heq, rfl⟩, hstands dialect row more hmore]
      by_cases hynull : y.isNull = true
      · simp [Filter.bareTruth, Filter.eval, comparisonTruth, heq, hynull, nullTest, isNull_param,
          Operand.value_of_isNull hynull,
          Operand.value_of_isNull (Operand.isNull_of_isBareNull hbare)]
      · simp [Filter.bareTruth, Filter.eval, comparisonTruth, heq, hynull, hbare, nullTest,
          isNull_param]
  | false =>
    obtain ⟨t, u, ht, hu, hnull, hext, hnested, hstands, hstands'⟩ := visit_operands hx hy h₁ h₂
    refine ⟨.compare op t u, ⟨?_, hext.values, hext.grouped⟩, ⟨hop, ht, hu⟩, hnested, ?_⟩
    · rw [tokens_compare]
      exact hext.tokens
    · intro g dialect row more hmore
      have hvalue : (Clause.compare op t u).condition dialect = comparison op t u := rfl
      rw [hvalue, eval_comparison, hstands dialect row more hmore,
        hstands' dialect row more hmore, Filter.bareTruth, Filter.eval, comparisonTruth]
      by_cases htest : op.isEquality = true ∧ y.isNull = true
      · rw [if_pos ⟨htest.1, hnull.mpr htest.2⟩]
        simp [htest, nullTest, isNull_param]
      · have hleft : ¬ (op.isEquality && x.isBareNull) = true := by
          intro hleft
          rw [hleft] at hswap
          have hbare : y.isBareNull = true := by simpa using hswap
          have heq : op.isEquality = true := (Bool.and_eq_true_iff.mp hleft).1
          exact htest ⟨heq, Operand.isNull_of_isBareNull hbare⟩
        have hright : ¬ (op.isEquality && y.isNull) = true := by simpa using htest
        rw [if_neg fun h => htest ⟨h.1, hnull.mp h.2⟩, if_neg hright, if_neg hleft]

/-! ## Connectives -/

/-- A connective inside another expression begins with a parenthesis. -/
theorem extends_begun (d : Draft) (wrap : Bool) :
    Extends d (d.begun wrap) (if wrap then [.word "("] else []) := by
  cases wrap with
  | false => exact ⟨(List.append_nil _).symm, List.prefix_rfl, rfl⟩
  | true => exact ⟨rfl, List.prefix_rfl, rfl⟩

/-- A connective inside another expression ends with a parenthesis. -/
theorem extends_ended (d : Draft) (wrap : Bool) :
    Extends d (d.ended wrap) (if wrap then [.word ")"] else []) := by
  cases wrap with
  | false => exact ⟨(List.append_nil _).symm, List.prefix_rfl, rfl⟩
  | true => exact ⟨rfl, List.prefix_rfl, rfl⟩

@[simp] theorem nested_begun (d : Draft) (wrap : Bool) : (d.begun wrap).nested = true := by
  cases wrap <;> rfl

@[simp] theorem nested_ended (d : Draft) (wrap : Bool) : (d.ended wrap).nested = d.nested := by
  cases wrap <;> rfl

/-- A connective is written as its parts with the word between them, in parentheses inside another
one. -/
theorem tokens_connect (op : BinaryOp) (a b : Clause) (nested : Bool) :
    (Clause.connect op a b).tokens nested =
      (if nested then [.word "("] else []) ++ a.tokens true ++ [.op op] ++ b.tokens true ++
        (if nested then [.word ")"] else []) := by
  cases nested <;> simp [Clause.tokens, Clause.pieces, Piece.tokens]

/-- A connective is written between its parts, in parentheses if it stands within another one. -/
theorem writtenAs_connect {op : BinaryOp} (hop : op.isLogical = true) {p q r : Filter e}
    (hp : ∀ {d d'}, visit e true p.toExpr d = .ok d' → ∃ c, WrittenAs P p d d' c)
    (hq : ∀ {d d'}, visit e true q.toExpr d = .ok d' → ∃ c, WrittenAs P q d d' c)
    (hr : ∀ {a b : Clause} {values : List Value}, a.StandsFor p values → b.StandsFor q values →
      (Clause.connect op a b).StandsFor r values)
    {d d' : Draft} (h : visit e true (.binary op p.toExpr q.toExpr) d = .ok d') :
    ∃ c, WrittenAs P r d d' c := by
  have hsame : Expr.nullComesFirst op p.toExpr q.toExpr = .ok false := by
    cases op <;> first | rfl | cases hop
  rw [Query.visit_binary, hop, Bool.true_and] at h
  obtain ⟨swap, hswap, h⟩ := bind_eq_ok.mp h
  obtain rfl : false = swap := Except.ok.inj (hsame.symm.trans hswap)
  obtain ⟨d₁, h₁, h⟩ := bind_eq_ok.mp h
  obtain ⟨d₂, h₂, h⟩ := bind_eq_ok.mp h
  cases h
  obtain ⟨a, ha⟩ := hp h₁
  obtain ⟨b, hb⟩ := hq h₂
  have hleft : Extends (d.begun d.nested) d₁ (a.tokens true) := by
    simpa using ha.toExtends
  have hright : Extends (d₁.put (.op op)) d₂ (b.tokens true) := by
    simpa [Draft.put, ha.nested] using hb.toExtends
  have hop' : Extends d₁ (d₁.put (.op op)) [.op op] := ⟨rfl, List.prefix_rfl, rfl⟩
  have hall := ((((extends_begun d d.nested).trans hleft).trans hop').trans hright).trans
    (extends_ended d₂ d.nested)
  have hvalues : d₂.values = (d₂.ended d.nested).values := (Draft.values_ended d₂ d.nested).symm
  refine ⟨.connect op a b, ⟨?_, hall.values, hall.grouped⟩, ⟨hop, ha.under, hb.under⟩, ?_, ?_⟩
  · rw [tokens_connect]
    exact hall.tokens
  · rw [nested_ended, hb.nested]
  · rw [← hvalues]
    exact hr (ha.stands.more hright.values) hb.stands

/-- A negation is written in front of its part in parentheses. -/
theorem writtenAs_not {p : Filter e} {d d₁ : Draft} {c : Clause}
    (h : WrittenAs P p ((d.put (.word "NOT (")).setNested false) d₁ c) :
    WrittenAs P p.not d ((d₁.setNested true).put (.word ")")) (.not c) where
  tokens := by
    have htokens := h.tokens
    simp only [Draft.setNested, Draft.put] at htokens ⊢
    simp [htokens, Clause.tokens, Clause.pieces, Piece.tokens]
  values := h.values
  grouped := h.grouped
  under := h.under
  nested := rfl
  stands := fun g dialect row more hmore => by
    rw [Clause.condition, Condition.eval, h.stands g dialect row more hmore]
    rfl

/-- Only a column is negated as one. -/
theorem column_of_negatedColumn {p : Filter e} {name : String}
    (h : visit.negatedColumn? e p.toExpr = some name) :
    ∃ hbool : e.isBoolColumn name = true, p = .column name hbool := by
  cases p with
  | column name' hbool =>
    simp only [Filter.toExpr, visit.negatedColumn?, hbool, if_true, Option.some.injEq] at h
    subst h
    exact ⟨hbool, rfl⟩
  | _ => cases h

/-! ## Predicates -/

/-- A predicate is written as a clause that stands for it. -/
theorem visit_filter {p : Filter e} (hnames : Named P e p.names) {d d' : Draft}
    (h : visit e true p.toExpr d = .ok d') : ∃ c, WrittenAs P p d d' c := by
  induction p generalizing d d' with
  | column name hbool =>
    rw [Filter.toExpr, Query.visit_column, hbool] at h
    obtain ⟨column, hcolumn, h⟩ := bind_eq_ok.mp h
    cases h
    exact ⟨_, writtenAs_boolTest hbool hcolumn (hnames name (by simp [Filter.names]) column hcolumn)
      (fun g d row => rfl) d⟩
  | constant b =>
    rw [Filter.toExpr, Query.visit_constant] at h
    cases h
    exact ⟨_, writtenAs_truth (fun g d row => rfl) d⟩
  | captured c b hc =>
    rw [Filter.toExpr, Query.visit_captured, hc] at h
    cases h
    exact ⟨_, writtenAs_truth (fun g d row => rfl) d⟩
  | compare op hop x y =>
    have hx : Named P e x.names := fun name hn => hnames name (by simp [Filter.names, hn])
    have hy : Named P e y.names := fun name hn => hnames name (by simp [Filter.names, hn])
    exact writtenAs_compare hop hx hy h
  | and p q ihp ihq =>
    have hp : Named P e p.names := fun name hn => hnames name (by simp [Filter.names, hn])
    have hq : Named P e q.names := fun name hn => hnames name (by simp [Filter.names, hn])
    have hop : BinaryOp.isLogical .and = true := rfl
    refine writtenAs_connect hop (fun h => ihp hp h) (fun h => ihq hq h) ?_ h
    intro a b values ha hb g dialect row more hmore
    rw [Clause.condition, if_pos rfl, Condition.eval, ha g dialect row more hmore,
      hb g dialect row more hmore]
    rfl
  | or p q ihp ihq =>
    have hp : Named P e p.names := fun name hn => hnames name (by simp [Filter.names, hn])
    have hq : Named P e q.names := fun name hn => hnames name (by simp [Filter.names, hn])
    have hop : BinaryOp.isLogical .or = true := rfl
    refine writtenAs_connect hop (fun h => ihp hp h) (fun h => ihq hq h) ?_ h
    intro a b values ha hb g dialect row more hmore
    rw [Clause.condition, if_neg (by decide), Condition.eval, ha g dialect row more hmore,
      hb g dialect row more hmore]
    rfl
  | not p ih =>
    rw [Filter.toExpr, Expr.negate, Query.visit_not] at h
    split at h
    next name hcolumn =>
      obtain ⟨hbool, rfl⟩ := column_of_negatedColumn hcolumn
      obtain ⟨column, hname, h⟩ := bind_eq_ok.mp h
      cases h
      exact ⟨_, writtenAs_boolTest hbool hname (hnames name (by simp [Filter.names]) column hname)
        (fun g d row => rfl) d⟩
    next =>
      obtain ⟨d₁, h₁, h⟩ := bind_eq_ok.mp h
      cases h
      obtain ⟨c, hc⟩ := ih hnames h₁
      exact ⟨.not c, writtenAs_not hc⟩
  | isIn x collection =>
    rw [Filter.toExpr, Expr.isIn, Query.visit_contains] at h
    exact writtenAs_contains hnames h
  | convert p ih =>
    rw [Filter.toExpr, Expr.convert, visit] at h
    obtain ⟨c, hc⟩ := ih hnames h
    exact ⟨c, hc.toExtends, hc.under, hc.nested, hc.stands⟩
  | lambda param p ih =>
    rw [Filter.toExpr, visit] at h
    obtain ⟨c, hc⟩ := ih hnames h
    exact ⟨c, hc.toExtends, hc.under, hc.nested, hc.stands⟩

end SqlCompose.Sql
