import SqlCompose.Proofs.Condition.ClauseReading
import SqlCompose.Proofs.Formula.Layout
import SqlCompose.Proofs.Formula.Reader

/-!
# Layouts read back

A layout is not always read as it was meant, since an operand of a comparison has no parentheses of
its own: what stands behind it goes with what stands in front of it. `Sql.Layout.regroup` says how
the parts of a layout are put together, and `Sql.readFormula_layout` that its text is read so.
-/

namespace SqlCompose.Sql

namespace Layout

variable {α : Type}

/-! ## Putting parts together -/

/-- The null literal makes a null test with a sign of equality that waits. -/
def settleNull : List (Waiting α) → Level α
  | .compare y .eq :: ws => ⟨ws, .isNull false y⟩
  | .compare y .ne :: ws => ⟨ws, .isNull true y⟩
  | ws => Level.settle ws .null

/-- The predicate that holds always, or never, behind what waits. -/
def settleTruth (d : Dialect) (b : Bool) (ws : List (Waiting α)) : Level α :=
  match d with
  | .postgres => Level.settle ws (.truth b)
  | _ =>
    let l := Level.settle ws (.number 1)
    ⟨l.waiting, .compare .eq l.last (.number (if b then 1 else 0))⟩

/-- Two formulas with a connective between them. -/
def connect (op : BinaryOp) (x y : Formula α) : Formula α := if op = .and then .and x y else .or x y

/-- What a layout is read as behind what waits. -/
def regroup (d : Dialect) : Layout α → List (Waiting α) → Level α
  | .operand x, ws => Level.settle ws (.operand x)
  | .null, ws => settleNull ws
  | .truth b, ws => settleTruth d b ws
  | .isIn a items, ws =>
    let l := a.regroup d ws
    ⟨l.waiting, .isIn l.last items⟩
  | .not a, ws => ⟨.not :: ws, (a.regroup d []).close⟩
  | .binary op a b, ws =>
    if op.isLogical then
      Level.settle ws (connect op (a.regroup d []).close (b.regroup d []).close)
    else
      let l := a.regroup d ws
      b.regroup d (.compare l.last op :: l.waiting)

/-- The formula that a layout is read as. -/
def reading (d : Dialect) (w : Layout α) : Formula α := (w.regroup d []).close

end Layout

/-! ## Reading -/

namespace Scan

variable {d : Dialect} {outer : List Nesting} {n : Nesting} {rest : List Lexeme}

/-- An operand at the start settles with what waits. -/
@[simp] theorem read_operand (x : Term) :
    read ⟨outer, n, .start⟩ x.lexeme = some (.settled outer n x.formula) := by
  cases x <;> rfl

/-- A further item joins those of a membership test. -/
@[simp] theorem read_item (x : Formula Term) (y : Term) (items : List Term) :
    read ⟨outer, n, .items x items⟩ y.lexeme = some ⟨outer, n, .listed x (items ++ [y])⟩ := by
  cases y <;> rfl

/-- The sign of a comparison makes the formula in front of it wait. -/
theorem read_sign (x : Formula Term) {op : BinaryOp} (hop : op.isLogical = false) :
    read ⟨outer, n, .done x⟩ (.op op) =
      some ⟨outer, { n with waiting := .compare x op :: n.waiting }, .start⟩ := by
  cases op <;> first | rfl | cases hop

/-- Items are read up to the parenthesis behind them. -/
theorem run_items (x : Formula Term) {items : List Term} (hne : items ≠ [])
    (h : ∀ y ∈ items, y.Plain) (before : List Term) :
    run ⟨outer, n, .items x before⟩ (pieceLexemes d (itemPieces items) ++ .closeParen :: rest) =
      run ⟨outer, n, .done (.isIn x (before ++ items))⟩ rest := by
  have hlist := foldlM_items (fun ys => Scan.mk outer n (.items x ys))
    (fun ys => Scan.mk outer n (.listed x ys)) (fun before y => read_item x y before)
    (fun _ => rfl) hne h before (d := d) (.closeParen :: rest)
  exact hlist

end Scan

namespace Layout

variable {d : Dialect}

/-- Whether a layout is read behind whatever waits as `regroup` says. -/
def ReadsAnywhere (w : Layout Term) (d : Dialect) : Prop :=
  ∀ outer n rest, Scan.run ⟨outer, n, .start⟩ (pieceLexemes d (w.pieces true) ++ rest) =
    Scan.run (.behind outer n (w.regroup d n.waiting)) rest

/-- Whether a layout is read in front of everything that waits as `regroup` says. -/
def ReadsFirst (w : Layout Term) (d : Dialect) : Prop :=
  ∀ outer n rest, n.waiting = [] →
    Scan.run ⟨outer, n, .start⟩ (pieceLexemes d (w.pieces true) ++ rest) =
      Scan.run (.behind outer n (w.regroup d [])) rest

/-- Whether a layout is read behind a formula and the sign of a comparison as `regroup` says. -/
def ReadsBehind (w : Layout Term) (d : Dialect) : Prop :=
  ∀ outer n op x rest, op.isLogical = false →
    Scan.run ⟨outer, n, .done x⟩ (pieceLexemes d (glue op (w.pieces true)) ++ rest) =
      Scan.run (.behind outer n (w.regroup d (.compare x op :: n.waiting))) rest

/-- Whether a layout is read on its own as `regroup` says. -/
def ReadsWhole (w : Layout Term) (d : Dialect) : Prop :=
  ∀ outer, ∃ n x, n.formula x = w.reading d ∧ ∀ rest,
    Scan.run ⟨outer, .fresh, .start⟩ (pieceLexemes d (w.pieces false) ++ rest) =
      Scan.run ⟨outer, n, .done x⟩ rest

/-- How a layout is read. -/
structure Reads (w : Layout Term) (d : Dialect) : Prop where
  first : w.ReadsFirst d
  behind : w.ReadsBehind d
  whole : w.ReadsWhole d

/-- A layout that is read behind whatever waits is read in front of everything that waits. -/
theorem ReadsAnywhere.first {w : Layout Term} (h : w.ReadsAnywhere d) : w.ReadsFirst d := by
  intro outer n rest hn
  rw [h, hn]

/-- A layout that is read behind whatever waits, and does not begin with the null literal, is read
behind the sign of a comparison. -/
theorem ReadsAnywhere.behind {w : Layout Term} (h : w.ReadsAnywhere d)
    (hnull : (w.pieces true).head? ≠ some (.term .null)) : w.ReadsBehind d := by
  intro outer n op x rest hop
  rcases glue_cases op (w.pieces true) with ⟨tail, htail, -⟩ | ⟨-, hglue⟩
  · simp [htail] at hnull
  · rw [hglue, pieceLexemes_op, List.cons_append, Scan.run_cons, Scan.read_sign x hop]
    exact h outer { n with waiting := .compare x op :: n.waiting } rest

/-- A layout that is written alike with parentheses and without is read on its own. -/
theorem ReadsFirst.whole {w : Layout Term} (h : w.ReadsFirst d)
    (hsame : w.pieces false = w.pieces true) : w.ReadsWhole d := by
  intro outer
  refine ⟨⟨none, none, (w.regroup d []).waiting⟩, (w.regroup d []).last, rfl, fun rest => ?_⟩
  rw [hsame]
  exact h outer .fresh rest rfl

/-- A layout that is read behind whatever waits is read in every place. -/
theorem ReadsAnywhere.reads {w : Layout Term} (h : w.ReadsAnywhere d)
    (hnull : (w.pieces true).head? ≠ some (.term .null)) (hsame : w.pieces false = w.pieces true) :
    w.Reads d :=
  ⟨h.first, h.behind hnull, h.first.whole hsame⟩

/-- What is read on its own is read in parentheses too. -/
theorem ReadsWhole.parenthesized {w : Layout Term} (h : w.ReadsWhole d) (outer : List Nesting)
    (n : Nesting) (rest : List Lexeme) :
    Scan.run ⟨n :: outer, .fresh, .start⟩ (pieceLexemes d (w.pieces false) ++ .closeParen :: rest) =
      Scan.run (.settled outer n (w.reading d)) rest := by
  obtain ⟨n', x, hx, hrun⟩ := h (n :: outer)
  rw [hrun, ← hx]
  rfl

/-- The null literal is read in every place. -/
theorem reads_null : (null : Layout Term).Reads d := by
  have hfirst : (null : Layout Term).ReadsFirst d := by
    intro outer n rest hn
    obtain ⟨disjuncts, conjuncts, waiting⟩ := n
    subst hn
    rw [pieces, pieceLexemes_term d (P := IsPlain) (x := .null) trivial]
    rfl
  refine ⟨hfirst, ?_, hfirst.whole rfl⟩
  intro outer n op x rest hop
  cases op with
  | eq | ne =>
    have hglue (op : BinaryOp) (hop : op.isEquality = true) :
        glue op ((null : Layout Term).pieces true) = [.nullTest op] := if_pos hop
    rw [hglue _ rfl, pieceLexemes_nullTest]
    rfl
  | lt | le | gt | ge =>
    have hglue (op : BinaryOp) (hop : op.isEquality ≠ true) :
        glue op ((null : Layout Term).pieces true) = [.op op, .term .null] := if_neg hop
    rw [hglue _ (by decide), pieceLexemes_op, pieceLexemes_term d (P := IsPlain) (x := .null) trivial]
    rfl
  | and | or => cases hop

/-- The predicate that holds always, or never, is read in every place. -/
theorem reads_truth (b : Bool) : (truth b : Layout Term).Reads d := by
  have h : (truth b : Layout Term).ReadsAnywhere d := by
    intro outer n rest
    rw [pieces, pieceLexemes_truth]
    cases d <;> rfl
  exact h.reads (by simp [pieces]) rfl

/-- A plain operand is an operand of the formula. -/
theorem formula_of_plainOperand {x : Term} (h : PlainOperand x) : x.formula = .operand x := by
  obtain ⟨hplain, hnull⟩ := h
  cases x with
  | column | param => rfl
  | number n => exact hplain.elim
  | null => exact absurd rfl hnull

/-- A connective is read if its parts are. -/
theorem reads_connective {op : BinaryOp} (hop : op.isLogical = true) {a b : Layout Term}
    (ha : a.Reads d) (hb : b.Reads d) : (binary op a b).Reads d := by
  have hpieces : (binary op a b).pieces false = a.pieces true ++ .op op :: b.pieces true := by
    rw [pieces, if_pos hop, if_neg Bool.false_ne_true]
  have hgroup : (binary op a b).pieces true =
      .word "(" :: ((binary op a b).pieces false ++ [.word ")"]) := by
    rw [hpieces, pieces, if_pos hop, if_pos rfl]
    simp
  have hregroup (ws : List (Waiting Term)) : (binary op a b).regroup d ws =
      Level.settle ws (connect op (a.reading d) (b.reading d)) := by
    rw [regroup, if_pos hop]
    rfl
  have hreading : (binary op a b).reading d = connect op (a.reading d) (b.reading d) :=
    congrArg Level.close (hregroup [])
  have hwhole : (binary op a b).ReadsWhole d := by
    intro outer
    have hleft (rest : List Lexeme) := ha.first outer .fresh (.op op :: rest) rfl
    cases op with
    | and =>
      refine ⟨⟨none, some (a.reading d), (b.regroup d []).waiting⟩, (b.regroup d []).last, ?_,
        fun rest => ?_⟩
      · rw [hreading]
        rfl
      · rw [hpieces, pieceLexemes_append, pieceLexemes_op, List.append_assoc, List.cons_append,
          hleft]
        exact hb.first outer ⟨none, some (a.reading d), []⟩ rest rfl
    | or =>
      refine ⟨⟨some (a.reading d), none, (b.regroup d []).waiting⟩, (b.regroup d []).last, ?_,
        fun rest => ?_⟩
      · rw [hreading]
        rfl
      · rw [hpieces, pieceLexemes_append, pieceLexemes_op, List.append_assoc, List.cons_append,
          hleft]
        exact hb.first outer ⟨some (a.reading d), none, []⟩ rest rfl
    | _ => cases hop
  have hread : (binary op a b).ReadsAnywhere d := by
    intro outer n rest
    have hbody := hwhole.parenthesized outer n rest
    rw [hgroup]
    simp only [pieceLexemes_opened, pieceLexemes_append, pieceLexemes_closed, pieceLexemes_nil,
      List.cons_append, List.append_assoc, List.nil_append]
    rw [hregroup, ← hreading]
    exact hbody
  exact ⟨hread.first, hread.behind (by simp [hgroup]), hwhole⟩

/-- A comparison is read if its operands are. -/
theorem reads_comparison {op : BinaryOp} (hop : op.isLogical = false) {a b : Layout Term}
    (ha : a.Reads d) (hb : b.Reads d) : (binary op a b).Reads d := by
  have hpieces (nested : Bool) :
      (binary op a b).pieces nested = a.pieces true ++ glue op (b.pieces true) := by
    rw [pieces, if_neg (by simp [hop])]
  have hregroup (ws : List (Waiting Term)) : (binary op a b).regroup d ws =
      b.regroup d (.compare (a.regroup d ws).last op :: (a.regroup d ws).waiting) := by
    rw [regroup, if_neg (by simp [hop])]
  have hfirst : (binary op a b).ReadsFirst d := by
    intro outer n rest hn
    rw [hpieces, pieceLexemes_append, List.append_assoc, ha.first outer n _ hn, hregroup]
    exact hb.behind outer _ op _ rest hop
  refine ⟨hfirst, ?_, hfirst.whole (by rw [hpieces, hpieces])⟩
  intro outer n op' x rest hop'
  rw [hpieces, ← glue_append op' (pieces_ne_nil true a), pieceLexemes_append, List.append_assoc,
    ha.behind outer n op' x _ hop', hregroup]
  exact hb.behind outer _ op _ rest hop

/-- A membership test is read if its item is. -/
theorem reads_isIn {a : Layout Term} {items : List Term} (hne : items ≠ [])
    (hitems : ∀ y ∈ items, y.Plain) (ha : a.Reads d) : (isIn a items).Reads d := by
  have hlist (outer : List Nesting) (n : Nesting) (x : Formula Term) (rest : List Lexeme) :
      Scan.run ⟨outer, n, .done x⟩
          (pieceLexemes d (.word " IN (" :: (itemPieces items ++ [.word ")"])) ++ rest) =
        Scan.run ⟨outer, n, .done (.isIn x items)⟩ rest := by
    simp only [pieceLexemes_members, pieceLexemes_append, pieceLexemes_closed, pieceLexemes_nil,
      List.cons_append, List.append_assoc, List.nil_append]
    exact Scan.run_items x hne hitems []
  have hfirst : (isIn a items).ReadsFirst d := by
    intro outer n rest hn
    rw [pieces, pieceLexemes_append, List.append_assoc, ha.first outer n _ hn]
    exact hlist outer _ _ rest
  refine ⟨hfirst, ?_, hfirst.whole rfl⟩
  intro outer n op x rest hop
  rw [pieces, ← glue_append op (pieces_ne_nil true a), pieceLexemes_append, List.append_assoc,
    ha.behind outer n op x _ hop]
  exact hlist outer _ _ rest

/-- A layout is read as `regroup` says. -/
theorem reads {w : Layout Term} (h : w.Plain) : w.Reads d := by
  induction w with
  | operand x =>
    have hread : (operand x).ReadsAnywhere d := by
      intro outer n rest
      rw [pieces, pieceLexemes_term d h.1, List.cons_append, Scan.run_cons, Scan.read_operand,
        formula_of_plainOperand h]
      rfl
    exact hread.reads (by simpa [pieces] using h.2) rfl
  | null => exact reads_null
  | truth b => exact reads_truth b
  | isIn a items ih =>
    obtain ⟨ha, hne, hitems⟩ := h
    exact reads_isIn hne hitems (ih ha)
  | not a ih =>
    have hread : (not a).ReadsAnywhere d := by
      intro outer n rest
      simp only [pieces, pieceLexemes_negated, pieceLexemes_append, pieceLexemes_closed,
        pieceLexemes_nil, List.cons_append, List.append_assoc, List.nil_append]
      exact (ih h).whole.parenthesized outer { n with waiting := .not :: n.waiting } rest
    exact hread.reads (by simp [pieces]) rfl
  | binary op a b iha ihb =>
    obtain ⟨ha, hb⟩ := h
    cases hop : op.isLogical with
    | true => exact reads_connective hop (iha ha) (ihb hb)
    | false => exact reads_comparison hop (iha ha) (ihb hb)

/-- The text of a layout with its null tests is read as `regroup` says, if its parameters are in
order. -/
theorem readFormula_layout {w : Layout Term} (h : w.Plain)
    (hindices : indices (w.tokens false) = List.range (indices (w.tokens false)).length) :
    d.readFormula (NullTest.finish (d.write (w.tokens false))) = some (w.reading d) := by
  have htidy : Tidy (w.pieces false) := by
    have htidy := tidy_pieces h false .nil (by simp [BreaksFirst])
    rwa [List.append_nil] at htidy
  obtain ⟨n, x, hx, hrun⟩ := (reads (d := d) h).whole []
  have hrun := hrun []
  rw [List.append_nil] at hrun
  rw [Dialect.readFormula, tokens, lexemes_finish w.finishes_pieces htidy hindices, ← hx]
  show (Scan.run ⟨[], .fresh, .start⟩ (pieceLexemes d (w.pieces false))).bind _ = _
  rw [hrun]
  rfl

end Layout

end SqlCompose.Sql
