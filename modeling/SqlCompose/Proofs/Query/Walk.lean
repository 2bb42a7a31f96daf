import Mathlib.Logic.Relation
import SqlCompose.Proofs.Dialect.Token
import SqlCompose.Query.Plan

/-!
# Walks step by step

A walk over an expression changes its draft in steps (`Query.Step`): it writes a token, binds a
value together with its parameter, opens a group, or says something about rows and columns. Every
draft that a walk leaves behind comes from the one it began with by such steps (`Query.walk`), so
what every step preserves holds of all drafts, however the expression is built.

What a walk does with each expression is said by `Query.Walked`: a walk ends with a draft if and
only if it is related to the one that it began with (`Query.visit_eq_ok`). What depends on the
expression is proved along this relation.
-/

namespace SqlCompose

/-- A result that was computed from another one. -/
theorem bind_eq_ok {ε α β : Type} {x : Except ε α} {f : α → Except ε β} {b : β} :
    x >>= f = .ok b ↔ ∃ a, x = .ok a ∧ f a = .ok b := by
  cases x <;> simp [bind, Except.bind]

/-- Two computations one after the other fail when the first does, or the second on its result. -/
theorem bind_eq_error {ε α β : Type} {x : Except ε α} {f : α → Except ε β} {fault : ε} :
    x >>= f = .error fault ↔ x = .error fault ∨ ∃ a, x = .ok a ∧ f a = .error fault := by
  cases x <;> simp [bind, Except.bind]

/-- A computation that cannot fail any more fails where it did before. -/
theorem bind_ok_eq_error {ε α β : Type} {x : Except ε α} {f : α → β} {fault : ε} :
    (x >>= fun a => .ok (f a)) = .error fault ↔ x = .error fault := by
  cases x <;> simp [bind, Except.bind]

/-- Changing the result of two computations changes that of the second. -/
theorem map_bind {ε α β γ : Type} (x : Except ε α) (f : α → Except ε β) (g : β → γ) :
    (x >>= f).map g = x >>= fun a => (f a).map g := by
  cases x <;> rfl

/-- A changed result is handed on changed. -/
theorem bind_map {ε α β γ : Type} (x : Except ε α) (g : α → β) (f : β → Except ε γ) :
    x.map g >>= f = x >>= fun a => f (g a) := by
  cases x <;> rfl

/-- What a selector calls its column. -/
def Expr.memberName? : Expr → Option String
  | .lambda _ body => body.memberName?
  | .unary .convert operand => operand.memberName?
  | .column name => some name
  | _ => none

namespace Draft

/-- Whether an operand can be written next. -/
def Open (d : Draft) : Prop := Token.EndOpen d.tokens

@[simp] theorem open_put (d : Draft) (t : Token) : (d.put t).Open ↔ t.isOperand = false := by
  simp [Open, Token.EndOpen, put]

@[simp] theorem open_setNested (d : Draft) (b : Bool) : (d.setNested b).Open ↔ d.Open := Iff.rfl

/-- An operand can be written behind an opening parenthesis. -/
theorem open_openGroup (d : Draft) : d.openGroup.Open := by
  simp [Open, Token.EndOpen, openGroup, Token.isOperand]

/-- An operand can be written where nothing stands yet. -/
theorem open_of_tokens_eq_nil {d : Draft} (h : d.tokens = []) : d.Open := by
  simp [Open, Token.EndOpen, h]

/-- Begin a comparison or a connective, in parentheses or without. -/
def begun (d : Draft) (wrap : Bool) : Draft :=
  if wrap then (d.setNested true).put (.word "(") else d.setNested true

/-- End a comparison or a connective. -/
def ended (d : Draft) (wrap : Bool) : Draft := if wrap then d.put (.word ")") else d

/-- Begin the condition of a step. -/
def beginFilter (d : Draft) : Draft :=
  (if d.tokens.isEmpty then d else d.openGroup).setNested false

/-- End the condition of a step, which may be the first one. -/
def endFilter (d : Draft) (first : Bool) : Draft :=
  if first then d.setNested true else (d.setNested true).put (.word ")")

/-- Write a value, as a predicate or as an operand. -/
def literal (d : Draft) (predicate : Bool) (v : Value) : Except QueryError Draft :=
  match predicate, v with
  | true, .bool b => .ok (d.truth b)
  | _, v => d.value v

/-- An operand can be written where a comparison begins. -/
theorem open_begun {d : Draft} (h : d.Open) (wrap : Bool) : (d.begun wrap).Open := by
  cases wrap with
  | false => exact h
  | true => exact (open_put _ _).mpr (by decide)

/-- An operand can be written where a condition begins. -/
theorem open_beginFilter (d : Draft) : d.beginFilter.Open := by
  unfold beginFilter
  split
  next h => exact open_of_tokens_eq_nil (List.isEmpty_iff.mp h)
  · exact open_openGroup d

@[simp] theorem values_put (d : Draft) (t : Token) : (d.put t).values = d.values := rfl

@[simp] theorem values_setNested (d : Draft) (b : Bool) : (d.setNested b).values = d.values := rfl

@[simp] theorem values_begun (d : Draft) (wrap : Bool) : (d.begun wrap).values = d.values := by
  cases wrap <;> rfl

@[simp] theorem values_ended (d : Draft) (wrap : Bool) : (d.ended wrap).values = d.values := by
  cases wrap <;> rfl

@[simp] theorem values_beginFilter (d : Draft) : d.beginFilter.values = d.values := by
  unfold beginFilter
  split <;> rfl

@[simp] theorem values_endFilter (d : Draft) (first : Bool) :
    (d.endFilter first).values = d.values := by
  cases first <;> rfl

@[simp] theorem values_afterFilter (op : Operator) (d : Draft) :
    (Query.afterFilter op d).values = d.values := by
  cases op <;> rfl

/-- A value is written as the null operand or, if it is a scalar, as a parameter. -/
theorem value_eq_ok {d d' : Draft} {v : Value} :
    d.value v = .ok d' ↔ v = .null ∧ d' = d.put .null ∨ v.isScalar = true ∧ d' = d.bind v := by
  cases v <;> simp [value, Value.isScalar, eq_comm]

/-- Where a predicate is wanted, a truth value is written as one. Any other value is written as an
operand. -/
theorem literal_cases {d d' : Draft} {p : Bool} {v : Value} (h : d.literal p v = .ok d') :
    (∃ b, p = true ∧ v = .bool b ∧ d' = d.truth b) ∨
      (¬ (p = true ∧ ∃ b, v = .bool b) ∧ d.value v = .ok d') := by
  by_cases htruth : p = true ∧ ∃ b, v = .bool b
  · obtain ⟨rfl, b, rfl⟩ := htruth
    exact .inl ⟨b, rfl, rfl, (Except.ok.inj h).symm⟩
  · unfold literal at h
    split at h
    · exact absurd ⟨rfl, _, rfl⟩ htruth
    · exact .inr ⟨htruth, h⟩

end Draft

namespace Query

variable {e : Entity}

/-! ## Steps -/

/-- What a walk does to a draft at a time. -/
inductive Step (e : Entity) : Draft → Draft → Prop
  /-- Name a column. -/
  | column {d : Draft} {name column : String} (ho : d.Open) (h : e.columnName name = .ok column) :
    Step e d (d.put (.ident column))
  /-- Write an operator behind an operand. -/
  | op (d : Draft) (op : BinaryOp) : Step e d (d.put (.op op))
  /-- Write the null operand. -/
  | null {d : Draft} (ho : d.Open) : Step e d (d.put .null)
  /-- Write the next parameter and bind its value. -/
  | bind {d : Draft} {v : Value} (ho : d.Open) (h : v.isScalar = true) : Step e d (d.bind v)
  /-- Write the predicate that holds always, or never. -/
  | truth {d : Draft} (ho : d.Open) (b : Bool) : Step e d (d.put (.truth b))
  /-- Write a word that opens a parenthesis. -/
  | opening {d : Draft} {word : String} (ho : d.Open) (h : word ∈ ["(", "NOT ("]) :
    Step e d (d.put (.word word))
  /-- Write a word behind an operand. -/
  | word (d : Draft) {word : String} (h : word ∈ [")", " IN (", ", "]) :
    Step e d (d.put (.word word))
  /-- Say whether a connective needs parentheses. -/
  | nested (d : Draft) (b : Bool) : Step e d (d.setNested b)
  /-- Open a group that has to hold besides the condition. -/
  | group {d : Draft} (h : d.tokens ≠ []) : Step e d d.openGroup
  /-- Say what a step with a predicate says about rows. -/
  | afterFilter (op : Operator) (d : Draft) : Step e d (Query.afterFilter op d)
  /-- Say what another step says about rows and columns. -/
  | applied {op : Operator} {arg : Option Expr} {d d' : Draft}
    (h : applyStep e op arg d = .ok d') : Step e d d'

/-- Several steps one after the other. -/
abbrev Steps (e : Entity) : Draft → Draft → Prop := Relation.ReflTransGen (Step e)

/-- What every step preserves, all steps together do. -/
theorem Steps.invariant {P : Draft → Prop} (hstep : ∀ d d', Step e d d' → P d → P d')
    {d d' : Draft} (h : Steps e d d') (hd : P d) : P d' := by
  induction h with
  | refl => exact hd
  | tail _ h ih => exact hstep _ _ h ih

/-! ## Parts of a walk -/

/-- How a draft comes from another one by what a step says about rows and columns. -/
inductive Applied (e : Entity) : Operator → Option Expr → Draft → Draft → Prop
  | take {arg : Option Expr} {n : UInt64} {d : Draft} (h : arg.bind Expr.rowCount? = some n) :
    Applied e .take arg d { d with take := some n }
  | skip {arg : Option Expr} {n : UInt64} {d : Draft} (h : arg.bind Expr.rowCount? = some n) :
    Applied e .skip arg d { d with skip := some n }
  | order {op : Operator} {selector : Expr} {column : String} {d : Draft}
    (hop : op = .orderBy ∨ op = .orderByDescending) (h : e.member selector = .ok column) :
    Applied e op (some selector) d { d with order := some ⟨column, op == .orderByDescending⟩ }
  | select {selector : Expr} {selected : SelectList} {d : Draft}
    (h : e.projection selector = .ok selected) :
    Applied e .select (some selector) d { d with selected := some selected, mode := .project }
  /-- A step with a predicate and a membership test say nothing so. -/
  | other {op : Operator} {arg : Option Expr} {d : Draft}
    (hop : takesPredicate op = true ∨ op = .contains) : Applied e op arg d d

/-- A step that is taken changes a draft as the relation of applied steps has it. -/
theorem applied_of_applyStep {op : Operator} {arg : Option Expr} {d d' : Draft}
    (h : applyStep e op arg d = .ok d') : Applied e op arg d d' := by
  cases op with
  | take =>
    simp only [applyStep] at h
    split at h <;> cases h
    next n hn => exact .take hn
  | skip =>
    simp only [applyStep] at h
    split at h <;> cases h
    next n hn => exact .skip hn
  | orderBy | orderByDescending =>
    cases arg with
    | none => cases h
    | some selector =>
      obtain ⟨column, hcolumn, h⟩ := bind_eq_ok.mp h
      cases h
      exact .order (by simp) hcolumn
  | select =>
    cases arg with
    | none => cases h
    | some selector =>
      obtain ⟨selected, hselected, h⟩ := bind_eq_ok.mp h
      cases h
      exact .select hselected
  | contains =>
    cases h
    exact .other (.inr rfl)
  | _ =>
    cases h
    exact .other (.inl rfl)

/-- What a step without a predicate says leaves the condition as it is. -/
theorem applyStep_condition {op : Operator} {arg : Option Expr} {d d' : Draft}
    (h : applyStep e op arg d = .ok d') : d'.tokens = d.tokens ∧ d'.values = d.values ∧
      d'.grouped = d.grouped := by
  cases applied_of_applyStep h <;> exact ⟨rfl, rfl, rfl⟩

/-- The words that a walk writes. -/
def walkWords : List String := ["(", "NOT (", ")", " IN (", ", "]

/-- The tokens of a draft stay of a kind that the words of a walk are of, and all tokens but
words. -/
theorem tokens_step {P : Token → Prop} (hwords : ∀ word ∈ walkWords, P (.word word))
    (hrest : ∀ t, (∀ text, t ≠ .word text) → P t) {d d' : Draft} (h : Step e d d')
    (hd : ∀ t ∈ d.tokens, P t) : ∀ t ∈ d'.tokens, P t := by
  have hput {t : Token} (ht : P t) : ∀ u ∈ (d.put t).tokens, P u := by
    intro u hu
    rcases List.mem_append.mp hu with hu | hu
    · exact hd u hu
    · rwa [List.mem_singleton.mp hu]
  cases h with
  | column | op | null | bind | truth => exact hput (hrest _ nofun)
  | opening _ hword =>
    refine hput (hwords _ ?_)
    simp only [walkWords, List.mem_cons, List.not_mem_nil, or_false] at hword ⊢
    tauto
  | word _ hword =>
    refine hput (hwords _ ?_)
    simp only [walkWords, List.mem_cons, List.not_mem_nil, or_false] at hword ⊢
    tauto
  | nested b => exact hd
  | group =>
    have hopen : P (.word "(") := hwords _ (by decide)
    have hclose : P (.word ")") := hwords _ (by decide)
    intro t ht
    simp only [Draft.openGroup, List.mem_append] at ht
    rcases ht with ht | ht
    · split at ht
      · exact hd t ht
      · simp only [List.mem_append, List.mem_singleton] at ht
        rcases ht with (rfl | ht) | rfl
        · exact hopen
        · exact hd t ht
        · exact hclose
    · simp only [List.mem_cons, List.not_mem_nil, or_false] at ht
      rcases ht with rfl | rfl
      · exact hrest _ nofun
      · exact hopen
  | afterFilter op => cases op <;> exact hd
  | applied h => rwa [(applyStep_condition h).1]

/-- A selector names a column. -/
theorem memberName_of_member {x : Expr} {column : String} (h : e.member x = .ok column) :
    ∃ name, x.memberName? = some name ∧ e.columnName name = .ok column := by
  fun_induction e.member x with
  | case1 _ body ih => exact ih h
  | case2 operand ih => exact ih h
  | case3 name => exact ⟨name, rfl, h⟩
  | case4 => cases h

/-- A selector that resolves names a column of the entity. -/
theorem columnName_of_member {x : Expr} {column : String} (h : e.member x = .ok column) :
    ∃ name, e.columnName name = .ok column :=
  (memberName_of_member h).imp fun _ hname => hname.2

/-- A column that was looked up is declared. -/
theorem declared_of_columnName {name column : String} (hcolumns : e.columns ≠ [])
    (h : e.columnName name = .ok column) :
    ∃ c ∈ e.columns, e.find? name = some c ∧ c.name = column := by
  unfold Entity.columnName at h
  rw [if_neg (by simpa using hcolumns)] at h
  split at h
  next c hc =>
    cases h
    refine ⟨c, ?_, hc, rfl⟩
    unfold Entity.find? at hc
    simp only [Option.or_eq_some_iff] at hc
    rcases hc with hc | ⟨-, hc | ⟨-, hc⟩⟩ <;> exact List.mem_of_find?_eq_some hc
  · cases h

/-- Whether an operand is null is only unknown where a captured value is. -/
theorem isNull_eq_error {x : Expr} {fault : QueryError} (h : x.isNull = .error fault) :
    ∃ c : Captured, c.evaluate = .error fault := by
  fun_induction Expr.isNull x with
  | case1 v => cases h
  | case2 c => exact ⟨c, bind_ok_eq_error.mp h⟩
  | case3 operand ih => exact ih h
  | case4 => cases h

/-- Where operands change places, the left one is null. -/
theorem isNull_of_swap {op : BinaryOp} {left right : Expr}
    (h : Expr.nullComesFirst op left right = .ok true) : left.isNull = .ok true := by
  unfold Expr.nullComesFirst at h
  split at h
  · obtain ⟨isNull, hleft, h⟩ := bind_eq_ok.mp h
    cases isNull with
    | true => exact hleft
    | false => cases h
  · cases h

/-- Binding a value is some steps of a walk. -/
theorem steps_value {d d' : Draft} {v : Value} (ho : d.Open) (h : d.value v = .ok d') :
    Steps e d d' := by
  rcases Draft.value_eq_ok.mp h with ⟨rfl, rfl⟩ | ⟨hv, rfl⟩
  · exact .single (.null ho)
  · exact .single (.bind ho hv)

/-- Writing a truth value is some steps of a walk. -/
theorem steps_truth {d : Draft} (ho : d.Open) (b : Bool) : Steps e d (d.truth b) :=
  .tail (.single (.truth ho b)) (.nested _ true)

/-- Writing a value is some steps of a walk. -/
theorem steps_literal {p : Bool} {d d' : Draft} {v : Value} (ho : d.Open)
    (h : d.literal p v = .ok d') : Steps e d d' := by
  rcases Draft.literal_cases h with ⟨b, -, -, rfl⟩ | ⟨-, hvalue⟩
  · exact steps_truth ho b
  · exact steps_value ho hvalue

/-- Testing a column of truth values is some steps of a walk. -/
theorem steps_boolTest {d : Draft} {name column : String} (ho : d.Open)
    (h : e.columnName name = .ok column) (b : Bool) : Steps e d (d.boolTest column b) :=
  .tail (.tail (.tail (.single (.column ho h)) (.op _ .eq))
    (.bind (v := .bool b) (by simp [Token.isOperand]) rfl)) (.nested _ true)

/-- Binding a list is some steps of a walk. -/
theorem steps_valueList {vs : List Value} {d d' : Draft} (ho : d.Open)
    (h : d.valueList vs = .ok d') : Steps e d d' := by
  induction vs generalizing d with
  | nil => cases h; exact .refl
  | cons v vs ih =>
    cases vs with
    | nil => exact steps_value ho h
    | cons w vs =>
      obtain ⟨d₁, h₁, h⟩ := bind_eq_ok.mp h
      exact (steps_value ho h₁).trans
        (.head (.word d₁ (by simp)) (ih ((Draft.open_put _ _).mpr (by decide)) h))

/-- Writing a membership test is some steps of a walk. -/
theorem steps_contains {collection item : Expr} {d d' : Draft} (ho : d.Open)
    (h : contains e collection item d = .ok d') : Steps e d d' := by
  obtain ⟨items, -, h⟩ := bind_eq_ok.mp h
  split at h
  · cases h
    exact .head (.nested d true) (steps_truth (d := d.setNested true) ho false)
  · obtain ⟨column, hcol, h⟩ := bind_eq_ok.mp h
    obtain ⟨d₁, hlist, h⟩ := bind_eq_ok.mp h
    obtain ⟨name, hname⟩ := columnName_of_member hcol
    cases h
    have hcolumn : Steps e d ((d.setNested true).put (.ident column)) :=
      .tail (.single (.nested d true)) (.column ho hname)
    have hlist : Steps e (((d.setNested true).put (.ident column)).put (.word " IN (")) d₁ :=
      steps_valueList ((Draft.open_put _ _).mpr (by decide)) hlist
    exact (hcolumn.tail (.word _ (by simp))).trans (hlist.tail (.word _ (by simp)))

/-- Beginning a comparison is some steps of a walk. -/
theorem steps_begun {d : Draft} (ho : d.Open) (wrap : Bool) : Steps e d (d.begun wrap) := by
  cases wrap with
  | false => exact .single (.nested d true)
  | true => exact .tail (.single (.nested d true)) (.opening ho (by simp))

/-- Ending a comparison is some steps of a walk. -/
theorem steps_ended (d : Draft) (wrap : Bool) : Steps e d (d.ended wrap) := by
  cases wrap with
  | false => exact .refl
  | true => exact .single (.word d (by simp))

/-- Beginning a condition is some steps of a walk. -/
theorem steps_beginFilter (d : Draft) : Steps e d d.beginFilter := by
  unfold Draft.beginFilter
  split
  · exact .single (.nested d false)
  next h => exact .tail (.single (.group (by simpa using h))) (.nested _ false)

/-- Ending a condition is some steps of a walk. -/
theorem steps_endFilter (d : Draft) (first : Bool) : Steps e d (d.endFilter first) := by
  cases first with
  | true => exact .single (.nested d true)
  | false => exact .tail (.single (.nested d true)) (.word _ (by simp))

/-! ## The walk -/

/-- A walk over a constant writes its value. -/
theorem visit_constant (p : Bool) (v : Value) (d : Draft) :
    visit e p (.constant v) d = d.literal p v := by
  rw [visit.eq_def]
  rfl

/-- A walk over a captured value writes what it evaluates to. -/
theorem visit_captured (p : Bool) (c : Captured) (d : Draft) :
    visit e p (.captured c) d = c.evaluate >>= d.literal p := by
  rw [visit.eq_def]
  rfl

/-- A walk over a column writes its name, or its test where a predicate is wanted of a column of
truth values. -/
theorem visit_column (p : Bool) (name : String) (d : Draft) :
    visit e p (.column name) d = (do
      let column ← e.columnName name
      .ok (if p && e.isBoolColumn name then d.boolTest column true else d.put (.ident column))) := by
  rw [visit]
  split <;> rfl

/-- A walk over a negation tests a column of truth values for false, and puts anything else in a
negated group. -/
theorem visit_not (p : Bool) (x : Expr) (d : Draft) :
    visit e p (.unary .not x) d = (
      match visit.negatedColumn? e x with
      | some name => do .ok (d.boolTest (← e.columnName name) false)
      | none => do
        let d₁ ← visit e true x ((d.put (.word "NOT (")).setNested false)
        .ok ((d₁.setNested true).put (.word ")"))) :=
  (visit.eq_def ..).trans rfl

/-- Only a column of truth values is negated as one. -/
theorem column_of_negated {x : Expr} {name : String} (h : visit.negatedColumn? e x = some name) :
    x = .column name ∧ e.isBoolColumn name = true := by
  cases x with
  | column name' =>
    rw [visit.negatedColumn?] at h
    split at h
    next hbool =>
      obtain rfl := Option.some.inj h
      exact ⟨rfl, hbool⟩
    · cases h
  | _ => cases h

/-- A comparison or a connective: the operands in their order, or exchanged. -/
theorem visit_binary (p : Bool) (op : BinaryOp) (left right : Expr) (d : Draft) :
    visit e p (.binary op left right) d = (do
      let swap ← Expr.nullComesFirst op left right
      let d₁ ← visit e op.isLogical (if swap then right else left)
        (d.begun (op.isLogical && d.nested))
      let d₂ ← visit e op.isLogical (if swap then left else right) (d₁.put (.op op))
      .ok (d₂.ended (op.isLogical && d.nested))) := by
  rw [visit]
  cases Expr.nullComesFirst op left right with
  | error fault => rfl
  | ok swap => cases swap <;> rfl

/-- A walk over a membership test writes the test. -/
theorem visit_contains (p : Bool) (collection item : Expr) (d : Draft) :
    visit e p (.call .contains [collection, item]) d = contains e collection item d := by
  rw [visit, if_pos rfl]
  rfl

/-- A step with a predicate: its condition stands alone, or in a group of its own. -/
theorem visit_filter (p : Bool) {op : Operator} (hop : takesPredicate op = true)
    (src arg : Expr) (rest : List Expr) (d : Draft) :
    visit e p (.call op (src :: arg :: rest)) d = (do
      let d₁ ← visit e false src d
      let d₂ ← visit e true arg d₁.beginFilter
      .ok (afterFilter op (d₂.endFilter d₁.tokens.isEmpty))) := by
  have hne : op ≠ .contains := by rintro rfl; cases hop
  rw [visit]
  simp only [hne, hop, if_false, if_true]
  rfl

/-- A step without a predicate. -/
theorem visit_step (p : Bool) {op : Operator} (hop : takesPredicate op = false)
    (hne : op ≠ .contains) (src : Expr) (args : List Expr) (d : Draft) :
    visit e p (.call op (src :: args)) d =
      visit e false src d >>= applyStep e op args.head? := by
  cases args <;> rw [visit] <;> simp [hne, hop]

/-- A step that could take a predicate and has none. -/
theorem visit_unfiltered (p : Bool) {op : Operator} (hop : takesPredicate op = true) (src : Expr)
    (d : Draft) :
    visit e p (.call op [src]) d = (do .ok (afterFilter op (← visit e false src d))) := by
  have hne : op ≠ .contains := by rintro rfl; cases hop
  rw [visit]
  simp only [hne, hop, if_false, if_true]

/-- Induction on an expression along a walk: through the places that the walk comes to, and up to
those where it refuses the expression whatever it has written before. The walk does not go into a
negated column, but what holds of columns is known; and the draft is of no account, so any will do
for the recursion. -/
@[elab_as_elim]
theorem visit_induction (e : Entity) {motive : Bool → Expr → Prop}
    (source : ∀ p, motive p .source)
    (constant : ∀ p v, motive p (.constant v))
    (captured : ∀ p c, motive p (.captured c))
    (column : ∀ p name, motive p (.column name))
    (binary : ∀ p op left right, motive op.isLogical left → motive op.isLogical right →
      motive p (.binary op left right))
    (convert : ∀ p x, motive p x → motive p (.unary .convert x))
    (not : ∀ p x, motive true x → motive p (.unary .not x))
    (lambda : ∀ p param x, motive p x → motive p (.lambda param x))
    (contains : ∀ p collection item, motive p (.call .contains [collection, item]))
    (filter : ∀ p op src arg rest, takesPredicate op = true → motive false src → motive true arg →
      motive p (.call op (src :: arg :: rest)))
    (unfiltered : ∀ p op src, takesPredicate op = true → motive false src →
      motive p (.call op [src]))
    (step : ∀ p op src args, takesPredicate op = false → op ≠ .contains → motive false src →
      motive p (.call op (src :: args)))
    (refused : ∀ p x fault, (∀ d, visit e p x d = .error (.unsupportedShape fault)) → motive p x)
    (p : Bool) (x : Expr) : motive p x := by
  induction p, x, Draft.empty using visit.induct e with
  | case1 p => exact source p
  | case2 | case3 => exact constant _ _
  | case4 p name | case5 p name => exact column p name
  | case6 p c => exact captured p c
  | case7 p op left right d _ _ ihr ihl => exact binary p op left right ihl ihr
  | case8 p x d ih => exact convert p x ih
  | case9 p x d name hname =>
    cases x with
    | column name => exact not p _ (column true name)
    | _ => cases hname
  | case10 p x d hname ih => exact not p x ih
  | case11 p param x d ih => exact lambda p param x ih
  | case12 | case13 | case14 => exact refused _ _ _ fun d => by rw [visit]
  | case15 p x d ih => exact refused _ _ _ fun d => by rw [visit]; rfl
  | case16 p op x d hne ih =>
    cases hop : takesPredicate op with
    | true => exact unfiltered p op x hop ih
    | false => exact step p op x [] hop hne ih
  | case17 p x item rest d hrest =>
    obtain rfl := List.isEmpty_iff.mp hrest
    exact contains p x item
  | case18 p x item rest d hrest =>
    exact refused _ _ _ fun d => by rw [visit, if_pos rfl, if_neg hrest]
  | case19 p op x arg rest d hne ih iharg =>
    cases hop : takesPredicate op with
    | true => exact filter p op x arg rest hop ih (iharg d)
    | false => exact step p op x (arg :: rest) hop hne ih

/-- How a draft comes from another one by a walk over an expression: what the walks over its parts
leave behind, and what is written in front of them, between them and behind them. -/
inductive Walked (e : Entity) : Bool → Expr → Draft → Draft → Prop
  | source {p : Bool} {d : Draft} : Walked e p .source d d
  | constant {p : Bool} {v : Value} {d d' : Draft} (h : d.literal p v = .ok d') :
    Walked e p (.constant v) d d'
  | captured {p : Bool} {c : Captured} {v : Value} {d d' : Draft} (hv : c.evaluate = .ok v)
    (h : d.literal p v = .ok d') : Walked e p (.captured c) d d'
  | column {p : Bool} {name column : String} {d : Draft} (hb : (p && e.isBoolColumn name) = false)
    (hcolumn : e.columnName name = .ok column) :
    Walked e p (.column name) d (d.put (.ident column))
  /-- A column of truth values is tested where it stands for a predicate. -/
  | test {name column : String} {d : Draft} (hb : e.isBoolColumn name = true)
    (hcolumn : e.columnName name = .ok column) :
    Walked e true (.column name) d (d.boolTest column true)
  | binary {p : Bool} {op : BinaryOp} {left right : Expr} {d d₁ d₂ : Draft}
    (hswap : Expr.nullComesFirst op left right = .ok false)
    (first : Walked e op.isLogical left (d.begun (op.isLogical && d.nested)) d₁)
    (second : Walked e op.isLogical right (d₁.put (.op op)) d₂) :
    Walked e p (.binary op left right) d (d₂.ended (op.isLogical && d.nested))
  /-- A null that comes first changes places with the other operand. -/
  | exchanged {p : Bool} {op : BinaryOp} {left right : Expr} {d d₁ d₂ : Draft}
    (hswap : Expr.nullComesFirst op left right = .ok true)
    (first : Walked e op.isLogical right (d.begun (op.isLogical && d.nested)) d₁)
    (second : Walked e op.isLogical left (d₁.put (.op op)) d₂) :
    Walked e p (.binary op left right) d (d₂.ended (op.isLogical && d.nested))
  | convert {p : Bool} {x : Expr} {d d' : Draft} (h : Walked e p x d d') :
    Walked e p (.unary .convert x) d d'
  | lambda {p : Bool} {param : String} {x : Expr} {d d' : Draft} (h : Walked e p x d d') :
    Walked e p (.lambda param x) d d'
  /-- A column of truth values is tested for the other one where it is negated. -/
  | negatedTest {p : Bool} {name column : String} {d : Draft} (hb : e.isBoolColumn name = true)
    (hcolumn : e.columnName name = .ok column) :
    Walked e p (.unary .not (.column name)) d (d.boolTest column false)
  | not {p : Bool} {x : Expr} {d d₁ : Draft} (hnone : visit.negatedColumn? e x = none)
    (h : Walked e true x ((d.put (.word "NOT (")).setNested false) d₁) :
    Walked e p (.unary .not x) d ((d₁.setNested true).put (.word ")"))
  | contains {p : Bool} {collection item : Expr} {d d' : Draft}
    (h : contains e collection item d = .ok d') :
    Walked e p (.call .contains [collection, item]) d d'
  | filter {p : Bool} {op : Operator} {src arg : Expr} {rest : List Expr} {d d₁ d₂ : Draft}
    (hop : takesPredicate op = true) (source : Walked e false src d d₁)
    (condition : Walked e true arg d₁.beginFilter d₂) :
    Walked e p (.call op (src :: arg :: rest)) d
      (afterFilter op (d₂.endFilter d₁.tokens.isEmpty))
  | unfiltered {p : Bool} {op : Operator} {src : Expr} {d d₁ : Draft}
    (hop : takesPredicate op = true) (source : Walked e false src d d₁) :
    Walked e p (.call op [src]) d (afterFilter op d₁)
  | step {p : Bool} {op : Operator} {src : Expr} {args : List Expr} {d d₁ d' : Draft}
    (hop : takesPredicate op = false) (hne : op ≠ .contains) (source : Walked e false src d d₁)
    (h : applyStep e op args.head? d₁ = .ok d') : Walked e p (.call op (src :: args)) d d'

/-- A walk that ends with a draft is one of the relation of walks. -/
theorem walked_of_visit {p : Bool} {x : Expr} {d d' : Draft} (h : visit e p x d = .ok d') :
    Walked e p x d d' := by
  induction p, x using visit_induction e generalizing d d' with
  | source p =>
    rw [visit] at h
    cases h
    exact .source
  | constant p v =>
    rw [visit_constant] at h
    exact .constant h
  | captured p c =>
    rw [visit_captured] at h
    obtain ⟨v, hv, h⟩ := bind_eq_ok.mp h
    exact .captured hv h
  | column p name =>
    rw [visit_column] at h
    obtain ⟨column, hcolumn, h⟩ := bind_eq_ok.mp h
    cases h
    split
    next hb =>
      obtain ⟨rfl, hb⟩ := Bool.and_eq_true_iff.mp hb
      exact .test hb hcolumn
    next hb => exact .column (Bool.eq_false_iff.mpr hb) hcolumn
  | binary p op left right ihl ihr =>
    rw [visit_binary] at h
    obtain ⟨swap, hswap, h⟩ := bind_eq_ok.mp h
    obtain ⟨d₁, h₁, h⟩ := bind_eq_ok.mp h
    obtain ⟨d₂, h₂, h⟩ := bind_eq_ok.mp h
    cases h
    cases swap with
    | false => exact .binary hswap (ihl h₁) (ihr h₂)
    | true => exact .exchanged hswap (ihr h₁) (ihl h₂)
  | convert p x ih =>
    rw [visit] at h
    exact .convert (ih h)
  | lambda p param x ih =>
    rw [visit] at h
    exact .lambda (ih h)
  | not p x ih =>
    rw [visit_not] at h
    split at h
    next name hname =>
      obtain ⟨column, hcolumn, h⟩ := bind_eq_ok.mp h
      cases h
      obtain ⟨rfl, hb⟩ := column_of_negated hname
      exact .negatedTest hb hcolumn
    next hnone =>
      obtain ⟨d₁, h₁, h⟩ := bind_eq_ok.mp h
      cases h
      exact .not hnone (ih h₁)
  | contains p collection item =>
    rw [visit_contains] at h
    exact .contains h
  | filter p op src arg rest hop ih iharg =>
    rw [visit_filter _ hop] at h
    obtain ⟨d₁, h₁, h⟩ := bind_eq_ok.mp h
    obtain ⟨d₂, h₂, h⟩ := bind_eq_ok.mp h
    cases h
    exact .filter hop (ih h₁) (iharg h₂)
  | unfiltered p op src hop ih =>
    rw [visit_unfiltered _ hop] at h
    obtain ⟨d₁, h₁, h⟩ := bind_eq_ok.mp h
    cases h
    exact .unfiltered hop (ih h₁)
  | step p op src args hop hne ih =>
    rw [visit_step _ hop hne] at h
    obtain ⟨d₁, h₁, h⟩ := bind_eq_ok.mp h
    exact .step hop hne (ih h₁) h
  | refused p x fault hfault =>
    rw [hfault] at h
    cases h

/-- Every walk of the relation ends with its draft. -/
theorem visit_of_walked {p : Bool} {x : Expr} {d d' : Draft} (h : Walked e p x d d') :
    visit e p x d = .ok d' := by
  induction h with
  | source => rw [visit]
  | constant h => rw [visit_constant, h]
  | captured hv h => rw [visit_captured, bind_eq_ok.mpr ⟨_, hv, h⟩]
  | column hb hcolumn => rw [visit_column, hcolumn, hb]; rfl
  | test hb hcolumn => rw [visit_column, hcolumn, hb]; rfl
  | binary hswap first second ih₁ ih₂ | exchanged hswap first second ih₁ ih₂ =>
    rw [visit_binary]
    exact bind_eq_ok.mpr ⟨_, hswap, bind_eq_ok.mpr ⟨_, ih₁, bind_eq_ok.mpr ⟨_, ih₂, rfl⟩⟩⟩
  | convert h ih | lambda h ih => rw [visit, ih]
  | negatedTest hb hcolumn =>
    rw [visit_not, visit.negatedColumn?, if_pos hb]
    exact bind_eq_ok.mpr ⟨_, hcolumn, rfl⟩
  | not hnone h ih =>
    rw [visit_not, hnone]
    exact bind_eq_ok.mpr ⟨_, ih, rfl⟩
  | contains h => rw [visit_contains, h]
  | filter hop source condition ih iharg =>
    rw [visit_filter _ hop]
    exact bind_eq_ok.mpr ⟨_, ih, bind_eq_ok.mpr ⟨_, iharg, rfl⟩⟩
  | unfiltered hop source ih =>
    rw [visit_unfiltered _ hop]
    exact bind_eq_ok.mpr ⟨_, ih, rfl⟩
  | step hop hne source h ih =>
    rw [visit_step _ hop hne]
    exact bind_eq_ok.mpr ⟨_, ih, h⟩

/-- A walk ends with a draft if and only if the draft comes from the one that it began with. -/
theorem visit_eq_ok {p : Bool} {x : Expr} {d d' : Draft} :
    visit e p x d = .ok d' ↔ Walked e p x d d' :=
  ⟨walked_of_visit, visit_of_walked⟩

/-- A walk is some steps one after the other. -/
theorem Walked.steps {p : Bool} {x : Expr} {d d' : Draft} (h : Walked e p x d d') (ho : d.Open) :
    Steps e d d' := by
  induction h with
  | source => exact .refl
  | constant h | captured hv h => exact steps_literal ho h
  | column hb hcolumn => exact .single (.column ho hcolumn)
  | test hb hcolumn => exact steps_boolTest ho hcolumn true
  | binary hswap first second ih₁ ih₂ | exchanged hswap first second ih₁ ih₂ =>
    have hfirst := ih₁ (Draft.open_begun ho _)
    have hsecond := ih₂ ((Draft.open_put _ _).mpr rfl)
    exact (((steps_begun ho _).trans hfirst).tail (.op _ _)).trans
      (hsecond.trans (steps_ended _ _))
  | convert h ih | lambda h ih => exact ih ho
  | negatedTest hb hcolumn => exact steps_boolTest ho hcolumn false
  | @not p x d d₁ hnone h ih =>
    have hword : Steps e d ((d.put (.word "NOT (")).setNested false) :=
      .tail (.single (.opening ho (by simp))) (.nested _ false)
    have hoperand := ih ((Draft.open_put _ _).mpr (by decide))
    exact ((hword.trans hoperand).tail (.nested _ true)).tail (.word _ (by simp))
  | contains h => exact steps_contains ho h
  | @filter p op src arg rest d d₁ d₂ hop source condition ih iharg =>
    have hbefore := (ih ho).trans (steps_beginFilter d₁)
    have hcondition := iharg (Draft.open_beginFilter d₁)
    exact (hbefore.trans hcondition).trans ((steps_endFilter d₂ _).tail (.afterFilter op _))
  | unfiltered hop source ih => exact (ih ho).tail (.afterFilter _ _)
  | step hop hne source h ih => exact (ih ho).tail (.applied h)

/-- A walk is a sequence of steps. -/
theorem walk {p : Bool} {x : Expr} {d d' : Draft} (h : visit e p x d = .ok d') (ho : d.Open) :
    Steps e d d' :=
  (visit_eq_ok.mp h).steps ho

/-- The tokens that a walk leaves behind are of a kind that its words are of, and all tokens but
words. -/
theorem tokens_visit {P : Token → Prop} (hwords : ∀ word ∈ walkWords, P (.word word))
    (hrest : ∀ t, (∀ text, t ≠ .word text) → P t) {p : Bool} {x : Expr} {bound : List Value}
    {d : Draft} (h : visit e p x (Draft.ofBound bound) = .ok d) : ∀ t ∈ d.tokens, P t :=
  (walk h (Draft.open_of_tokens_eq_nil rfl)).invariant (P := fun d => ∀ t ∈ d.tokens, P t)
    (fun _ _ => tokens_step hwords hrest) (by simp [Draft.ofBound])

end Query

/-! ## Plans -/

/-- The plan of a query comes from a walk behind no values. -/
theorem planQuery_eq_ok {d : Dialect} {e : Entity} {root : Expr} {t : Plan} :
    d.planQuery e root = .ok t ↔
      ∃ draft, Query.visit e false root (Draft.ofBound []) = .ok draft ∧ d.ofDraft draft = t := by
  rw [Dialect.planQuery, Query.draft, Draft.empty]
  cases Query.visit e false root (Draft.ofBound []) <;> simp [Except.map]

/-- The plan of a predicate comes from a walk behind the bound values. -/
theorem planFilter_eq_ok {d : Dialect} {e : Entity} {predicate : Expr} {bound : List Value}
    {t : Plan} : d.planFilter e predicate bound = .ok t ↔
      ∃ draft, Query.visit e true predicate (Draft.ofBound bound) = .ok draft ∧
        d.ofDraft (draft.setNested true) = t := by
  rw [Dialect.planFilter, Query.draftFilter]
  cases Query.visit e true predicate (Draft.ofBound bound) <;>
    simp [Except.map, bind, Except.bind]

end SqlCompose
