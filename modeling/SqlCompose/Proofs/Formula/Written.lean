import SqlCompose.Proofs.Condition.Written
import SqlCompose.Proofs.Formula.Condition
import SqlCompose.Proofs.Query.Naming

/-!
# Predicates are written as layouts

A walk over a predicate, whatever its operands are, writes a layout behind what has been written
(`Sql.lays_visit`), unless the predicate has the table or a step in it. The layout is a condition if
and only if the predicate is one.
-/

namespace SqlCompose

/-- Whether a value is a truth value. -/
def Value.isTruth : Value → Bool
  | .bool _ => true
  | _ => false

/-- Whether an expression that stands as a predicate states a truth value, and so does each part of
its connectives. What a comparison compares is of no account. -/
def Expr.isCondition (e : Entity) : Expr → Bool
  | .constant v => v.isTruth
  | .captured c => c.evaluate.toOption.any Value.isTruth
  | .column name => e.isBoolColumn name
  | .binary op left right => !op.isLogical || left.isCondition e && right.isCondition e
  | .unary _ operand => operand.isCondition e
  | .lambda _ body => body.isCondition e
  | .call op _ => op == .contains
  | .source | .param _ | .construct _ => false

namespace Sql

open Query (visit)

variable {e : Entity}

/-! ## Layouts behind drafts -/

/-- Whether a layout has been written behind a draft. -/
structure Lays (d d' : Draft) (w : Layout Term) : Prop
    extends Extends d d' (w.tokens d.nested) where
  plain : w.Plain
  nested : d.nested = true → d'.nested = true

/-- The layout of an operand. -/
def Layout.ofTerm : Term → Layout Term
  | .null => .null
  | t => .operand t

/-- An operand is laid behind a draft by its token. -/
theorem lays_term {d d' : Draft} {t : Term} (ht : t.Plain) (h : Extends d d' [t.token])
    (hnested : d'.nested = d.nested) : Lays d d' (.ofTerm t) := by
  refine ⟨?_, ?_, fun hd => hnested.trans hd⟩
  · cases t <;> exact h
  · cases t with
    | null => trivial
    | _ => exact ⟨ht, nofun⟩

/-- A column is laid behind a draft by its name. -/
theorem lays_column {column : String} (hplain : IsPlain column) (d : Draft) :
    Lays d (d.put (.ident column)) (.operand (.column column)) :=
  lays_term (t := .column column) hplain ⟨rfl, List.prefix_rfl, rfl⟩ rfl

/-- A truth value is laid behind a draft by its test. -/
theorem lays_truth (d : Draft) (b : Bool) : Lays d (d.truth b) (.truth b) :=
  ⟨⟨rfl, List.prefix_rfl, rfl⟩, trivial, fun _ => rfl⟩

/-- A comparison is written as its operands with the sign between them, and a connective inside
another one in parentheses. -/
theorem tokens_binary (op : BinaryOp) (a b : Layout Term) (nested : Bool) :
    (Layout.binary op a b).tokens nested =
      (if op.isLogical && nested then [.word "("] else []) ++ a.tokens true ++ [.op op] ++
        b.tokens true ++ (if op.isLogical && nested then [.word ")"] else []) := by
  unfold Layout.tokens
  cases hop : op.isLogical with
  | true => cases nested <;> simp [Layout.pieces, hop, Piece.tokens]
  | false => simp [Layout.pieces, hop, tokens_glue]

/-- The test of a column of truth values is laid behind a draft as a comparison. -/
theorem lays_boolTest {column : String} (hplain : IsPlain column) (d : Draft) (b : Bool) :
    Lays d (d.boolTest column b)
      (.binary .eq (.operand (.column column)) (.operand (.param d.values.length))) := by
  refine ⟨⟨?_, List.prefix_append _ _, rfl⟩, ⟨⟨hplain, nofun⟩, trivial, nofun⟩, fun _ => rfl⟩
  rw [tokens_binary]
  simp [Draft.boolTest, Draft.bind, Draft.put, Layout.tokens, Layout.pieces, Piece.tokens,
    Term.token, BinaryOp.isLogical]

/-- An operator is written between its operands, a connective in parentheses if it stands within
another one. -/
theorem lays_binary {op : BinaryOp} {u v : Layout Term} {d d₁ d₂ : Draft}
    (hu : Lays (d.begun (op.isLogical && d.nested)) d₁ u) (hv : Lays (d₁.put (.op op)) d₂ v) :
    Lays d (d₂.ended (op.isLogical && d.nested)) (.binary op u v) := by
  have hnested : d₁.nested = true := hu.nested (nested_begun _ _)
  have hleft : Extends (d.begun (op.isLogical && d.nested)) d₁ (u.tokens true) := by
    simpa using hu.toExtends
  have hright : Extends (d₁.put (.op op)) d₂ (v.tokens true) := by
    simpa [Draft.put, hnested] using hv.toExtends
  have hop : Extends d₁ (d₁.put (.op op)) [.op op] := ⟨rfl, List.prefix_rfl, rfl⟩
  have hall := ((((extends_begun d (op.isLogical && d.nested)).trans hleft).trans hop).trans
    hright).trans (extends_ended d₂ (op.isLogical && d.nested))
  refine ⟨⟨?_, hall.values, hall.grouped⟩, ⟨hu.plain, hv.plain⟩, fun _ => ?_⟩
  · rw [tokens_binary]
    exact hall.tokens
  · rw [nested_ended]
    exact hv.nested hnested

/-- A negation is written in front of its part in parentheses. -/
theorem lays_not {d d₁ : Draft} {w : Layout Term}
    (h : Lays ((d.put (.word "NOT (")).setNested false) d₁ w) :
    Lays d ((d₁.setNested true).put (.word ")")) (.not w) := by
  refine ⟨⟨?_, h.values, h.grouped⟩, h.plain, fun _ => rfl⟩
  have htokens := h.tokens
  simp only [Draft.setNested, Draft.put] at htokens ⊢
  simp [htokens, Layout.tokens, Layout.pieces, Piece.tokens]

/-- A membership test is written with its items behind the column. -/
theorem lays_isIn {column : String} (hplain : IsPlain column) {d d₁ : Draft} {items : List Term}
    (hne : items ≠ []) (hitems : ∀ y ∈ items, y.Plain)
    (h : Extends (((d.setNested true).put (.ident column)).put (.word " IN (")) d₁
      ((itemPieces items).flatMap Piece.tokens)) (hnested : d₁.nested = true) :
    Lays d (d₁.put (.word ")")) (.isIn (.operand (.column column)) items) := by
  refine ⟨⟨?_, h.values, h.grouped⟩, ⟨⟨hplain, nofun⟩, hne, hitems⟩, fun _ => hnested⟩
  simp [Draft.put, h.tokens, Layout.tokens, Layout.pieces, Piece.tokens, Term.token,
    Draft.setNested]

/-! ## Predicates -/

/-- A written value is laid behind a draft, as a condition if it is a truth value where one is
wanted. -/
theorem lays_literal {p : Bool} {v : Value} {d d' : Draft} (h : d.literal p v = .ok d') :
    ∃ w, Lays d d' w ∧ (p = true → w.isCondition = v.isTruth) := by
  rcases Draft.literal_cases h with ⟨b, rfl, rfl, rfl⟩ | ⟨htruth, hvalue⟩
  · exact ⟨.truth b, lays_truth d b, fun _ => rfl⟩
  · obtain ⟨t, ht, -, hext, hnested, -⟩ := value_term (P := IsPlain) hvalue
    refine ⟨.ofTerm t, lays_term ht hext hnested, fun hp => ?_⟩
    have hoperand : (Layout.ofTerm t).isCondition = false := by cases t <;> rfl
    rw [hoperand]
    cases v with
    | bool b => exact absurd ⟨hp, b, rfl⟩ htruth
    | _ => rfl

/-- A membership test is laid behind a draft, as a condition. -/
theorem lays_contains {collection item : Expr} {p : Bool} {d d' : Draft}
    (hnames : PlainNames e item.columnNames) (h : Query.contains e collection item d = .ok d') :
    ∃ w, Lays d d' w ∧ (p = true → w.isCondition = true) := by
  obtain ⟨items, -, h⟩ := bind_eq_ok.mp h
  split at h
  · cases h
    exact ⟨.truth false, lays_truth d false, fun _ => rfl⟩
  next hne =>
    obtain ⟨column, hcolumn, h⟩ := bind_eq_ok.mp h
    obtain ⟨d₁, hlist, h⟩ := bind_eq_ok.mp h
    cases h
    obtain ⟨name, hname, hcolumnName⟩ := Query.memberName_of_member hcolumn
    have hmem : name ∈ item.columnNames := by simp [Expr.columnNames_of_memberName hname]
    obtain ⟨ts, hts, hlength, hext, hnested, -⟩ := valueList_terms (P := IsPlain) hlist
    have hts' : ts ≠ [] := by
      rintro rfl
      exact hne (List.isEmpty_iff_length_eq_zero.mpr hlength.symm)
    exact ⟨_, lays_isIn (hnames name hmem column hcolumnName) hts' hts hext hnested, fun _ => rfl⟩

/-- The names in the operands of a comparison are plain if those in the comparison are. -/
theorem PlainNames.operands {op : BinaryOp} {left right : Expr}
    (h : PlainNames e (Expr.binary op left right).columnNames) :
    PlainNames e left.columnNames ∧ PlainNames e right.columnNames :=
  ⟨fun name hn => h name (by simp [Expr.columnNames, hn]),
    fun name hn => h name (by simp [Expr.columnNames, hn])⟩

/-- A walk over a predicate lays it behind a draft, as a condition if the predicate states a truth
value. Only the operands of a comparison change places, and a step is no part of a predicate. -/
theorem lays_walked {p : Bool} {x : Expr} {d d' : Draft} (h : Query.Walked e p x d d')
    (hx : x.isPredicate = true) (hnames : PlainNames e x.columnNames) :
    ∃ w, Lays d d' w ∧ (p = true → w.isCondition = x.isCondition e) := by
  induction h with
  | source => cases hx
  | constant h => exact lays_literal h
  | captured hv h =>
    obtain ⟨w, hw, hcondition⟩ := lays_literal h
    exact ⟨w, hw, fun hp => by simp [hcondition hp, Expr.isCondition, hv, Except.toOption]⟩
  | @column p name column d hb hcolumn =>
    have hplain := hnames name (by simp [Expr.columnNames]) column hcolumn
    refine ⟨_, lays_column hplain d, fun hp => ?_⟩
    rw [hp, Bool.true_and] at hb
    exact hb.symm
  | @test name column d hb hcolumn =>
    have hplain := hnames name (by simp [Expr.columnNames]) column hcolumn
    exact ⟨_, lays_boolTest hplain d true, fun _ => hb.symm⟩
  | @binary p op left right d d₁ d₂ hswap _ _ ihl ihr =>
    obtain ⟨hleft, hright⟩ := Bool.and_eq_true_iff.mp hx
    obtain ⟨u, hu, hcu⟩ := ihl hleft hnames.operands.1
    obtain ⟨v, hv, hcv⟩ := ihr hright hnames.operands.2
    refine ⟨_, lays_binary hu hv, fun _ => ?_⟩
    unfold Layout.isCondition Expr.isCondition
    cases hop : op.isLogical with
    | false => rfl
    | true => rw [hcu hop, hcv hop]
  | @exchanged p op left right d d₁ d₂ hswap _ _ ihr ihl =>
    obtain ⟨hleft, hright⟩ := Bool.and_eq_true_iff.mp hx
    obtain ⟨u, hu, -⟩ := ihr hright hnames.operands.2
    obtain ⟨v, hv, -⟩ := ihl hleft hnames.operands.1
    refine ⟨_, lays_binary hu hv, fun _ => ?_⟩
    have hop : op.isLogical = false := by cases op <;> first | rfl | cases hswap
    simp [Layout.isCondition, Expr.isCondition, hop]
  | convert _ ih | lambda _ ih => exact ih hx hnames
  | @negatedTest p name column d hb hcolumn =>
    have hplain := hnames name (by simp [Expr.columnNames]) column hcolumn
    exact ⟨_, lays_boolTest hplain d false, fun _ => hb.symm⟩
  | not hnone _ ih =>
    obtain ⟨w, hw, hcondition⟩ := ih hx hnames
    exact ⟨_, lays_not hw, fun _ => hcondition rfl⟩
  | contains h =>
    refine lays_contains (fun name hn => hnames name ?_) h
    simp [Expr.columnNames, Expr.columnNamesOf, hn]
  | filter hop | unfiltered hop =>
    obtain rfl := eq_of_beq hx
    cases hop
  | step hop hne => exact absurd (eq_of_beq hx) hne

/-- A predicate is written as a layout, which is a condition if the predicate is one. -/
theorem lays_visit {p : Bool} {x : Expr} (hx : x.isPredicate = true)
    (hnames : PlainNames e x.columnNames) {d d' : Draft} (h : visit e p x d = .ok d') :
    ∃ w, Lays d d' w ∧ (p = true → w.isCondition = x.isCondition e) :=
  lays_walked (Query.visit_eq_ok.mp h) hx hnames

end Sql

end SqlCompose
