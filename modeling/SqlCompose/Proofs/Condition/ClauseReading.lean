import SqlCompose.Proofs.Condition.Clause
import SqlCompose.Proofs.Condition.Reader

/-!
# Clauses read back

The finished text of clauses is read as the condition one expects: every clause as its own
(`Sql.reads_clause`), and several as their conjunction (`Sql.readCondition_clauses`). A group that
has been settled is read as a negation, which evaluates to the same.
-/

namespace SqlCompose.Sql

/-! ## Lexemes of pieces -/

section

variable (d : Dialect)

/-- The lexemes of pieces with their null tests. -/
def pieceLexemes (ps : List Piece) : List Lexeme :=
  (finished (writeEqual ps)).flatMap (tokenLexemes d)

@[simp] theorem pieceLexemes_nil : pieceLexemes d [] = [] := rfl

/-- Pieces are read one after the other. -/
theorem pieceLexemes_append (ps qs : List Piece) :
    pieceLexemes d (ps ++ qs) = pieceLexemes d ps ++ pieceLexemes d qs := by
  simp [pieceLexemes, finished]

/-- The lexeme of an operand. -/
def Term.lexeme : Term → Lexeme
  | .column name => .name name
  | .param index => .param index
  | .number n => .number n
  | .null => .null

/-- The lexemes of a comparison with a null operand. -/
def testLexemes : BinaryOp → List Lexeme
  | .eq => [.is, .null]
  | .ne => [.is, .not, .null]
  | o => [.op o, .null]

/-- The lexemes of the predicate that holds always, or never. -/
def truthLexemes (b : Bool) : List Lexeme :=
  match d with
  | .postgres => [.truth b]
  | _ => [.number 1, .op .eq, .number (if b then 1 else 0)]

/-- The pieces that are the same in all conditions, with their lexemes. -/
def fixedLexemes : List (Piece × List Lexeme) :=
  [(.term .null, [.null]), (.word "(", [.openParen]), (.word "NOT (", [.not, .openParen]),
    (.word ")", [.closeParen]), (.word " IN (", [.in, .openParen]), (.word ", ", [.comma]),
    (.word " IS NULL", [.is, .null])] ++
  BinaryOp.all.map (fun o => (.op o, [.op o])) ++
  BinaryOp.all.map (fun o => (.nullTest o, testLexemes o)) ++
  [true, false].map fun b => (.truth b, truthLexemes d b)

/-- The pieces that are the same in all conditions are read as their lexemes. -/
theorem pieceLexemes_fixed : ∀ q ∈ fixedLexemes d, pieceLexemes d [q.1] = q.2 := by
  cases d <;> decide +kernel

/-- The lexemes of the first piece stand in front of those of the others. -/
theorem pieceLexemes_cons (q : Piece × List Lexeme) (hq : q ∈ fixedLexemes d) (ps : List Piece) :
    pieceLexemes d (q.1 :: ps) = q.2 ++ pieceLexemes d ps := by
  rw [← pieceLexemes_fixed d q hq]
  exact pieceLexemes_append d [q.1] ps

/-- An operand is read as its lexeme. -/
theorem pieceLexemes_term {P : String → Prop} {x : Term} (h : x.Under P) (ps : List Piece) :
    pieceLexemes d (.term x :: ps) = x.lexeme :: pieceLexemes d ps := by
  cases x with
  | column name => exact pieceLexemes_append d [.term (.column name)] ps
  | param index => exact pieceLexemes_append d [.term (.param index)] ps
  | number n => exact h.elim
  | null => exact pieceLexemes_cons d (.term .null, [.null]) (by simp [fixedLexemes]) ps

@[simp] theorem pieceLexemes_op (o : BinaryOp) (ps : List Piece) :
    pieceLexemes d (.op o :: ps) = .op o :: pieceLexemes d ps :=
  pieceLexemes_cons d (.op o, [.op o]) (by cases o <;> simp [fixedLexemes, BinaryOp.all]) ps

@[simp] theorem pieceLexemes_nullTest (o : BinaryOp) (ps : List Piece) :
    pieceLexemes d (.nullTest o :: ps) = testLexemes o ++ pieceLexemes d ps :=
  pieceLexemes_cons d (.nullTest o, testLexemes o) (by cases o <;> simp [fixedLexemes, BinaryOp.all]) ps

@[simp] theorem pieceLexemes_truth (b : Bool) (ps : List Piece) :
    pieceLexemes d (.truth b :: ps) = truthLexemes d b ++ pieceLexemes d ps :=
  pieceLexemes_cons d (.truth b, truthLexemes d b) (by cases b <;> simp [fixedLexemes]) ps

@[simp] theorem pieceLexemes_opened (ps : List Piece) :
    pieceLexemes d (.word "(" :: ps) = .openParen :: pieceLexemes d ps :=
  pieceLexemes_cons d (.word "(", [.openParen]) (by simp [fixedLexemes]) ps

@[simp] theorem pieceLexemes_negated (ps : List Piece) :
    pieceLexemes d (.word "NOT (" :: ps) = .not :: .openParen :: pieceLexemes d ps :=
  pieceLexemes_cons d (.word "NOT (", [.not, .openParen]) (by simp [fixedLexemes]) ps

@[simp] theorem pieceLexemes_closed (ps : List Piece) :
    pieceLexemes d (.word ")" :: ps) = .closeParen :: pieceLexemes d ps :=
  pieceLexemes_cons d (.word ")", [.closeParen]) (by simp [fixedLexemes]) ps

@[simp] theorem pieceLexemes_members (ps : List Piece) :
    pieceLexemes d (.word " IN (" :: ps) = .in :: .openParen :: pieceLexemes d ps :=
  pieceLexemes_cons d (.word " IN (", [.in, .openParen]) (by simp [fixedLexemes]) ps

@[simp] theorem pieceLexemes_comma (ps : List Piece) :
    pieceLexemes d (.word ", " :: ps) = .comma :: pieceLexemes d ps :=
  pieceLexemes_cons d (.word ", ", [.comma]) (by simp [fixedLexemes]) ps

@[simp] theorem pieceLexemes_isNull (ps : List Piece) :
    pieceLexemes d (.word " IS NULL" :: ps) = .is :: .null :: pieceLexemes d ps :=
  pieceLexemes_cons d (.word " IS NULL", [.is, .null]) (by simp [fixedLexemes]) ps

end

/-! ## The condition of a clause -/

/-- The predicate that holds always, or never. -/
def truthCondition (d : Dialect) (b : Bool) : Condition :=
  match d with
  | .postgres => .truth b
  | _ => .compare .eq (.number 1) (.number (if b then 1 else 0))

/-- A comparison, which is a test for absence if the other operand is null. -/
def comparison (op : BinaryOp) (x y : Term) : Condition :=
  if y = .null then
    match op with
    | .eq => .isNull x
    | .ne => .isNotNull x
    | op => .compare op x .null
  else .compare op x y

namespace Clause

/-- The condition that a clause is read as. -/
def condition (d : Dialect) : Clause → Condition
  | .compare op x y => comparison op x y
  | .truth b => truthCondition d b
  | .isIn column items => .isIn (.column column) items
  | .not c => .not (c.condition d)
  | .connect op a b =>
    if op = .and then .and (a.condition d) (b.condition d) else .or (a.condition d) (b.condition d)

/-- The condition that a settled group is read as. -/
def groupCondition (d : Dialect) : Clause → Condition
  | .compare .ne x .null => .not (.isNull x)
  | c => c.condition d

end Clause

/-! ## Reading -/

section

variable {P : String → Prop} {d : Dialect} {outer : List Depth} {l : Depth} {rest : List Lexeme}

/-- An operand is read where a comparison starts. -/
@[simp] theorem read_operand (x : Term) :
    State.read ⟨outer, l, .start⟩ x.lexeme = some ⟨outer, l, .operand x⟩ := by
  cases x <;> rfl

/-- The sign of a comparison is read behind its left operand. -/
theorem read_sign (x : Term) {op : BinaryOp} (hop : op.isLogical = false) :
    State.read ⟨outer, l, .operand x⟩ (.op op) = some ⟨outer, l, .compared x op⟩ :=
  if_neg (by simp [hop])

/-- The right operand completes a comparison. -/
@[simp] theorem read_right (x y : Term) (op : BinaryOp) :
    State.read ⟨outer, l, .compared x op⟩ y.lexeme =
      some (.completed outer l (.compare op x y)) := by
  cases y <;> rfl

/-- A further item joins those of a membership test. -/
@[simp] theorem read_item (x y : Term) (items : List Term) :
    State.read ⟨outer, l, .items x items⟩ y.lexeme =
      some ⟨outer, l, .listed x (items ++ [y])⟩ := by
  cases y <;> rfl

/-- A comparison is read. -/
theorem run_comparison {op : BinaryOp} (hop : op.isLogical = false) {x y : Term} (hx : x.Under P)
    (hy : y.Under P) :
    State.run ⟨outer, l, .start⟩
        (pieceLexemes d ((Clause.compare op x y).pieces false) ++ rest) =
      State.run (.completed outer l (comparison op x y)) rest := by
  by_cases hnull : y = .null
  · subst hnull
    have hright (op : BinaryOp) : State.read ⟨outer, l, .compared x op⟩ .null =
        some (.completed outer l (.compare op x .null)) := read_right x .null op
    cases op with
    | eq | ne =>
      simp only [Clause.pieces, if_true, pieceLexemes_term d hx, pieceLexemes_nullTest, testLexemes,
        pieceLexemes_nil, List.cons_append, List.nil_append, run_cons, read_operand]
      rfl
    | and | or => cases hop
    | lt | le | gt | ge =>
      simp [Clause.pieces, pieceLexemes_term d hx, testLexemes, read_sign x hop, hright, comparison]
  · simp [Clause.pieces, hnull, pieceLexemes_term d hx, pieceLexemes_term d hy, read_sign x hop,
      comparison]

/-- The predicate that holds always, or never, is read as a condition. -/
theorem run_truth (b : Bool) : State.run ⟨outer, l, .start⟩ (truthLexemes d b ++ rest) =
    State.run (.completed outer l (truthCondition d b)) rest := by
  cases d <;> rfl

/-- A reader that takes an item where it waits for one, and waits again behind a comma, takes all
items of a list. -/
theorem foldlM_items {σ : Type} {read : σ → Lexeme → Option σ} (waits listed : List Term → σ)
    (hitem : ∀ before y, read (waits before) y.lexeme = some (listed (before ++ [y])))
    (hcomma : ∀ before, read (listed before) .comma = some (waits before)) {items : List Term}
    (hne : items ≠ []) (h : ∀ y ∈ items, y.Under P) (before : List Term) (rest : List Lexeme) :
    (pieceLexemes d (itemPieces items) ++ rest).foldlM read (waits before) =
      rest.foldlM read (listed (before ++ items)) := by
  fun_induction itemPieces items generalizing before with
  | case1 => exact absurd rfl hne
  | case2 y =>
    rw [pieceLexemes_term d (h y (by simp)), pieceLexemes_nil, List.cons_append, List.nil_append,
      List.foldlM_cons, hitem]
    rfl
  | case3 y ys hys ih =>
    obtain ⟨hy, hys'⟩ := List.forall_mem_cons.mp h
    have hrest := ih (by simpa using hys) hys' (before ++ [y])
    rw [pieceLexemes_term d hy, pieceLexemes_comma, List.cons_append, List.cons_append,
      List.foldlM_cons, hitem, Option.bind_eq_bind, Option.bind_some, List.foldlM_cons, hcomma,
      Option.bind_eq_bind, Option.bind_some, hrest, List.append_cons before y ys]

/-- Items are read up to the parenthesis behind them. -/
theorem run_items (x : Term) {items : List Term} (hne : items ≠ [])
    (h : ∀ y ∈ items, y.Under P)
    (before : List Term) :
    State.run ⟨outer, l, .items x before⟩
        (pieceLexemes d (itemPieces items) ++ .closeParen :: rest) =
      State.run (.completed outer l (.isIn x (before ++ items))) rest := by
  have hlist := foldlM_items (fun ys => State.mk outer l (.items x ys))
    (fun ys => State.mk outer l (.listed x ys)) (fun before y => read_item x y before)
    (fun _ => rfl) hne h before (d := d) (.closeParen :: rest)
  exact hlist

/-- A clause that is read on its own: behind it, the reader is done with a condition, and all that
has been read is the condition of the clause. -/
def ReadsAlone (c : Clause) (d : Dialect) : Prop :=
  ∀ outer, ∃ (l : Depth) (k : Condition), l.condition k = c.condition d ∧
    ∀ rest, State.run ⟨outer, .fresh, .start⟩ (pieceLexemes d (c.pieces false) ++ rest) =
      State.run ⟨outer, l, .done k⟩ rest

/-- A clause that is read among others, with connectives in parentheses. -/
def ReadsWithin (c : Clause) (d : Dialect) : Prop :=
  ∀ outer l rest, State.run ⟨outer, l, .start⟩ (pieceLexemes d (c.pieces true) ++ rest) =
    State.run (.completed outer l (c.condition d)) rest

/-- What is read on its own is read in parentheses too. -/
theorem ReadsAlone.parenthesized {c : Clause} (h : ReadsAlone c d) (outer : List Depth) (l : Depth)
    (rest : List Lexeme) :
    State.run ⟨l :: outer, .fresh, .start⟩
        (pieceLexemes d (c.pieces false) ++ .closeParen :: rest) =
      State.run (.completed outer l (c.condition d)) rest := by
  obtain ⟨l', k, hk, hrun⟩ := h (l :: outer)
  rw [hrun, ← hk]
  rfl

/-- A clause that is written alike with parentheses and without is read on its own as it is among
others. -/
theorem ReadsWithin.alone {c : Clause} (h : ReadsWithin c d)
    (hsame : c.pieces false = c.pieces true) : ReadsAlone c d :=
  fun outer => ⟨.fresh, c.condition d, rfl, fun rest => by rw [hsame, h]; rfl⟩

/-- A clause is read as its condition. -/
theorem reads_clause {c : Clause} (hc : c.Under P) : ReadsWithin c d ∧ ReadsAlone c d := by
  induction c with
  | compare op x y =>
    obtain ⟨hop, hx, hy⟩ := hc
    have h : ReadsWithin (.compare op x y) d := fun outer l rest => run_comparison hop hx hy
    exact ⟨h, h.alone rfl⟩
  | truth b =>
    have h : ReadsWithin (.truth b) d := fun outer l rest => by
      simpa [Clause.pieces, Clause.condition] using run_truth b
    exact ⟨h, h.alone rfl⟩
  | isIn column items =>
    obtain ⟨hcolumn, hne, hitems⟩ := hc
    have h : ReadsWithin (.isIn column items) d := fun outer l rest => by
      have hname : Term.Under P (.column column) := hcolumn
      simp only [Clause.pieces, pieceLexemes_term d hname, pieceLexemes_members,
        pieceLexemes_append, pieceLexemes_closed, pieceLexemes_nil, List.cons_append,
        List.append_assoc, List.nil_append]
      exact run_items (.column column) hne hitems []
    exact ⟨h, h.alone rfl⟩
  | not c ih =>
    have halone := (ih hc).2
    have h : ReadsWithin (.not c) d := fun outer l rest => by
      simp only [Clause.pieces, pieceLexemes_negated, pieceLexemes_append, pieceLexemes_closed,
        pieceLexemes_nil, List.cons_append, List.append_assoc, List.nil_append]
      exact halone.parenthesized outer { l with negations := l.negations + 1 } rest
    exact ⟨h, h.alone rfl⟩
  | connect op a b iha ihb =>
    obtain ⟨hop, ha, hb⟩ := hc
    have hleft := (iha ha).1
    have hright := (ihb hb).1
    have halone : ReadsAlone (.connect op a b) d := by
      intro outer
      cases op with
      | and =>
        refine ⟨⟨none, some (a.condition d), 0⟩, b.condition d, rfl, fun rest => ?_⟩
        simp only [Clause.pieces, pieceLexemes_append, pieceLexemes_op, List.cons_append,
          List.append_assoc, hleft outer .fresh]
        exact hright outer ⟨none, some (a.condition d), 0⟩ rest
      | or =>
        refine ⟨⟨some (a.condition d), none, 0⟩, b.condition d, rfl, fun rest => ?_⟩
        simp only [Clause.pieces, pieceLexemes_append, pieceLexemes_op, List.cons_append,
          List.append_assoc, hleft outer .fresh]
        exact hright outer ⟨some (a.condition d), none, 0⟩ rest
      | _ => cases hop
    refine ⟨fun outer l rest => ?_, halone⟩
    have hbody := halone.parenthesized outer l rest
    simp only [Clause.pieces, pieceLexemes_append, pieceLexemes_op, pieceLexemes_opened,
      pieceLexemes_closed, pieceLexemes_nil, List.cons_append, List.append_assoc,
      List.nil_append] at hbody ⊢
    exact hbody

/-- A settled group is read as a condition among others. -/
theorem run_settled {c : Clause} (hc : c.Under P) (outer : List Depth) (l : Depth)
    (rest : List Lexeme) :
    State.run ⟨outer, l, .start⟩ (pieceLexemes d c.settled ++ rest) =
      State.run (.completed outer l (c.groupCondition d)) rest := by
  by_cases h : c.IsDifference
  · obtain ⟨x, rfl⟩ := h
    have hx : x.Under P := hc.2.1
    simp only [Clause.settled, pieceLexemes_negated, pieceLexemes_term d hx, pieceLexemes_isNull,
      pieceLexemes_closed, pieceLexemes_nil, List.cons_append, List.nil_append]
    exact congrArg (Option.bind · _) (read_operand x)
  · have hcondition : c.groupCondition d = c.condition d := by
      unfold Clause.groupCondition
      split
      next x => exact absurd ⟨x, rfl⟩ h
      · rfl
    rw [Clause.settled_of_not_isDifference h, hcondition, ← (reads_clause hc).2.parenthesized]
    simp only [Clause.group, pieceLexemes_opened, pieceLexemes_append, pieceLexemes_closed,
      pieceLexemes_nil, List.cons_append, List.append_assoc, List.nil_append]
    rfl

end

/-! ## Several clauses -/

/-- The condition that several clauses are read as; there has to be one. -/
def clausesCondition (d : Dialect) : List Clause → Option Condition
  | [] => none
  | [c] => some (c.condition d)
  | c :: cs => some (cs.foldl (fun k c => .and k (c.groupCondition d)) (c.groupCondition d))

section

variable {P : String → Prop} {d : Dialect}

/-- Further groups are read as conjuncts. The conjunction so far is what the reader keeps in front
of the next group. -/
theorem run_groups {cs : List Clause} (h : ∀ c ∈ cs, c.Under P) (conjuncts : Option Condition)
    (k : Condition) :
    (State.run ⟨[], ⟨none, conjuncts, 0⟩, .done k⟩
      (pieceLexemes d (cs.flatMap fun c => .op .and :: c.settled))).bind State.condition? =
      some (cs.foldl (fun k c => .and k (c.groupCondition d))
        (Depth.condition ⟨none, conjuncts, 0⟩ k)) := by
  induction cs generalizing conjuncts k with
  | nil => rfl
  | cons c cs ih =>
    obtain ⟨hc, hcs⟩ := List.forall_mem_cons.mp h
    rw [List.flatMap_cons, pieceLexemes_append, pieceLexemes_op]
    have hgroup := run_settled (d := d) hc []
      ⟨none, some (Depth.condition ⟨none, conjuncts, 0⟩ k), 0⟩
    exact (congrArg (Option.bind · State.condition?) (hgroup _)).trans (ih hcs _ _)

/-- Clauses are read as their condition. -/
theorem conditionOf?_pieceLexemes {cs : List Clause} (h : ∀ c ∈ cs, c.Under P) (hne : cs ≠ []) :
    conditionOf? (pieceLexemes d (settledPieces cs)) = clausesCondition d cs := by
  match cs with
  | [] => exact absurd rfl hne
  | [c] =>
    obtain ⟨l, k, hk, hrun⟩ := (reads_clause (d := d) (h c (by simp))).2 []
    have hrun := hrun []
    rw [List.append_nil] at hrun
    rw [conditionOf?, State.initial, settledPieces, hrun, clausesCondition, ← hk]
    rfl
  | c :: next :: cs =>
    obtain ⟨hc, hcs⟩ := List.forall_mem_cons.mp h
    have hrest := run_groups hcs none (c.groupCondition d) (d := d)
    rw [conditionOf?, State.initial, settledPieces, pieceLexemes_append, run_settled hc]
    · exact hrest
    · simp

/-- The text of clauses with its null tests is read as their condition, if their parameters are in
order. -/
theorem readCondition_clauses {cs : List Clause} (h : ∀ c ∈ cs, c.Plain) (hne : cs ≠ [])
    (hindices : pieceIndices (clausePieces cs) =
      List.range (pieceIndices (clausePieces cs)).length) :
    d.readCondition (NullTest.finish (d.write ((clausePieces cs).flatMap Piece.tokens))) =
      clausesCondition d cs := by
  rw [Dialect.readCondition, lexemes_finish (finishes_clausePieces cs) (tidy_clausePieces h) hindices]
  exact conditionOf?_pieceLexemes h hne

variable {g : Engine} {row : String → Value} {params : List Value}

/-- Settling a group does not change what its condition evaluates to. -/
theorem eval_groupCondition (c : Clause) :
    (c.groupCondition d).eval g row params = (c.condition d).eval g row params := by
  unfold Clause.groupCondition
  split
  next x => simp [Clause.condition, comparison, Condition.eval, nullTest]
  · rfl

/-- The condition of clauses holds if all of them do. -/
theorem eval_clausesCondition {cs : List Clause} {k : Condition}
    (h : clausesCondition d cs = some k) :
    k.eval g row params = .all (cs.map fun c => (c.condition d).eval g row params) := by
  have hfold (cs : List Clause) (k : Condition) :
      (cs.foldl (fun k c => .and k (c.groupCondition d)) k).eval g row params =
        (cs.map fun c => (c.condition d).eval g row params).foldl Truth.and
          (k.eval g row params) := by
    induction cs generalizing k with
    | nil => rfl
    | cons c cs ih => rw [List.foldl_cons, ih, Condition.eval, eval_groupCondition]; rfl
  match cs with
  | [] => cases h
  | [c] =>
    cases h
    simp [Truth.all]
  | c :: next :: cs =>
    cases h
    rw [hfold, eval_groupCondition]
    simp [Truth.all]

end

end SqlCompose.Sql
