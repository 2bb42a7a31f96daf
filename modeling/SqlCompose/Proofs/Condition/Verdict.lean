import SqlCompose.Proofs.Condition.Written
import SqlCompose.Proofs.Query.Reference

/-!
# Verdicts on rows

A predicate is asked about a row by the query for the rows that it selects: the verdict is what the
condition of this query evaluates to on the row (`Dialect.verdict`). Names of columns may hold any
characters. The verdict is the truth value of the predicate as long as no name holds the mark of a
null operand and none is exposed (`Sql.verdict_eq`).
-/

namespace SqlCompose

open Sql (Engine Truth Record)

/-! ## Verdicts -/

namespace Dialect

variable (d : Dialect) (g : Engine) {e : Entity} (row : Record e) (predicate : Expr)

/-- What the condition of the query for the rows of a predicate evaluates to on a row; nothing if the
query is not compiled or its condition cannot be read. -/
def verdict : Option Truth := do
  let t ← (d.planQuery e (.call .filter [.source, predicate])).toOption
  let k ← d.readCondition t.fragment
  some (k.eval g (row.stored d) t.params)

/-- Whether the query for the rows of a predicate selects a row. -/
def Selects : Prop := d.verdict g row predicate = some .yes

end Dialect

namespace Sql

variable {P : String → Prop} {d : Dialect} {e : Entity}

/-! ## Null tests of clauses -/

/-- A first token that is no operator begins no null test. -/
theorem writeTests_cons {t : Token} (ht : ∀ o, t ≠ .op o) (o : BinaryOp) (word : String)
    (ts : List Token) : writeTests o word (t :: ts) = t :: writeTests o word ts := by
  cases t with
  | op o => exact absurd rfl (ht o)
  | _ => rfl

/-- An operator stays if it is not the one that is looked for, or if no null operand follows. -/
theorem writeTests_op {o o' : BinaryOp} {word : String} {ts : List Token}
    (h : o' ≠ o ∨ ts.head? ≠ some .null) :
    writeTests o word (.op o' :: ts) = .op o' :: writeTests o word ts := by
  cases ts with
  | nil => rfl
  | cons t ts =>
    cases t with
    | null => rw [writeTests, if_neg (h.resolve_right (by simp))]; rfl
    | _ => rfl

/-- Writing null tests out puts no null operand first. -/
theorem head?_writeTests {o : BinaryOp} {word : String} {ts : List Token}
    (h : ts.head? ≠ some .null) : (writeTests o word ts).head? ≠ some .null := by
  fun_cases writeTests o word ts with
  | case1 o' ts => split <;> simp
  | case2 t ts => simpa using h
  | case3 => simp

/-- A first token that is no operator begins no null test of either kind. -/
theorem plainNullTests_cons {t : Token} (ht : ∀ o, t ≠ .op o) (ts : List Token) :
    plainNullTests (t :: ts) = namedToken t :: plainNullTests ts := by
  simp only [plainNullTests, writeTests_cons ht, List.map_cons]

/-- An operator that compares with something other than null begins no null test. -/
theorem plainNullTests_op {o : BinaryOp} {ts : List Token}
    (h : o.isEquality = false ∨ ts.head? ≠ some .null) :
    plainNullTests (.op o :: ts) = .op o :: plainNullTests ts := by
  have hne {o' : BinaryOp} (ho' : o'.isEquality = true) (ho : o.isEquality = false) : o ≠ o' := by
    rintro rfl
    simp [ho] at ho'
  rw [plainNullTests, writeTests_op (h.imp_left (hne rfl)),
    writeTests_op (h.imp (hne rfl) head?_writeTests)]
  rfl

/-- A comparison with null becomes its null test. -/
theorem plainNullTests_test (o : BinaryOp) (ts : List Token) :
    plainNullTests (.op o :: .null :: ts) =
      finished (writeEqual [.nullTest o]) ++ plainNullTests ts := by
  cases o <;> rfl

/-- Whether the null tests in the tokens of pieces are those of the pieces, whatever comes behind. -/
def TestsApart (ps : List Piece) : Prop :=
  ∀ rest, plainNullTests (ps.flatMap Piece.tokens ++ rest) =
    finished (writeEqual ps) ++ plainNullTests rest

namespace TestsApart

/-- No pieces have no null tests. -/
theorem nil : TestsApart [] := fun _ => rfl

/-- Pieces side by side keep their null tests apart if each do. -/
theorem append {ps qs : List Piece} (hp : TestsApart ps) (hq : TestsApart qs) :
    TestsApart (ps ++ qs) := by
  intro rest
  rw [List.flatMap_append, List.append_assoc, hp, hq]
  simp [finished]

/-- An operand begins no null test. -/
theorem term (x : Term) : TestsApart [.term x] := by
  have hx : ∀ o, x.token ≠ .op o := by cases x <;> simp [Term.token]
  exact fun rest => plainNullTests_cons hx rest

/-- A word begins no null test. -/
theorem word (text : String) : TestsApart [.word text] :=
  fun rest => plainNullTests_cons (t := .word text) nofun rest

/-- The predicate that holds always, or never, begins no null test with what follows. -/
theorem truth (b : Bool) : TestsApart [.truth b] :=
  fun rest => plainNullTests_cons (t := .truth b) nofun rest

/-- A connective begins no null test. -/
theorem connective {op : BinaryOp} (hop : op.isLogical = true) : TestsApart [.op op] := by
  have hnot : op.isEquality = false := by cases op <;> first | rfl | cases hop
  exact fun rest => plainNullTests_op (.inl hnot)

/-- A comparison is a null test, or nothing is null behind its operator. -/
theorem comparison (op : BinaryOp) (y : Term) :
    TestsApart (if y = .null then [.nullTest op] else [.op op, .term y]) := by
  intro rest
  by_cases hnull : y = .null
  · rw [if_pos hnull]
    exact plainNullTests_test op rest
  · rw [if_neg hnull]
    have hright : ((Term.token y) :: rest).head? ≠ some .null := by
      cases y <;> simp_all [Term.token]
    exact (plainNullTests_op (.inr hright)).trans (congrArg _ (term y rest))

/-- The items of a membership test begin no null test. -/
theorem items (ys : List Term) : TestsApart (itemPieces ys) := by
  fun_induction itemPieces ys with
  | case1 => exact nil
  | case2 y => exact term y
  | case3 y ys _ ih => exact (term y).append ((word ", ").append ih)

end TestsApart

/-- The null tests in the tokens of a clause are those of its pieces. -/
theorem Clause.testsApart_pieces {c : Clause} (h : c.Under P) (nested : Bool) :
    TestsApart (c.pieces nested) := by
  induction c generalizing nested with
  | compare op x y => exact (TestsApart.term x).append (.comparison op y)
  | truth b => exact .truth b
  | isIn column items =>
    exact (TestsApart.term _).append ((TestsApart.word _).append ((TestsApart.items items).append
      (.word _)))
  | not c ih => exact (TestsApart.word _).append ((ih h false).append (.word _))
  | connect op a b iha ihb =>
    obtain ⟨hop, ha, hb⟩ := h
    have hleft := iha ha true
    have hop := TestsApart.connective hop
    have hright := ihb hb true
    cases nested with
    | false => exact hleft.append (hop.append hright)
    | true => exact (TestsApart.word _).append (hleft.append (hop.append (hright.append (.word _))))

/-! ## Reading under any names -/

/-- The finished text of a condition is read as its tokens with their null tests. -/
theorem Watched.lexemes_finish {ts : List Token} (h : Watched ts)
    (hexposed : exposesName (writeTests .eq " IS NULL" ts) = false)
    (hindices : indices (plainNullTests ts) = List.range (indices (plainNullTests ts)).length) :
    lexemes d (NullTest.finish (d.write ts)) = (plainNullTests ts).flatMap (tokenLexemes d) := by
  have hsame : nullTests ts = plainNullTests ts := by
    rw [nullTests, settleNames_of_not_exposed hexposed, plainNullTests]
  have hknown : ∀ t ∈ plainNullTests ts, KnownWord t := by
    rw [← hsame]
    intro t ht
    obtain ⟨u, hu, rfl⟩ := List.mem_map.mp ht
    have hword := (h.unmarked_written u hu).knownWord
    cases u with
    | null => exact (by decide : nullWord ∈ conditionWords)
    | ident | param | op | truth | word => exact hword
  have hreadable : d.Readable (plainNullTests ts) := hsame ▸ h.readable
  rw [(h.keepsNames_finish.mpr hexposed).tests, ← lexemes_chars hreadable hknown hindices,
    ← Dialect.toList_write, String.ofList_toList]

/-- The expression of an operand is a predicate. -/
theorem isPredicate_operand (x : Operand) : x.toExpr.isPredicate = true := by
  induction x with
  | convert x ih | lambda param x ih => exact ih
  | _ => rfl

/-- The expression of a filter is a predicate. -/
theorem isPredicate_filter (p : Filter e) : p.toExpr.isPredicate = true := by
  induction p with
  | compare op hop x y => exact Bool.and_eq_true_iff.mpr ⟨isPredicate_operand x, isPredicate_operand y⟩
  | and p q ihp ihq | or p q ihp ihq => exact Bool.and_eq_true_iff.mpr ⟨ihp, ihq⟩
  | not p ih | convert p ih | lambda param p ih => exact ih
  | _ => rfl

/-- The verdict on a row is the truth value of the predicate, where a null operand under a function
is overlooked on the left of a comparison. -/
theorem verdict_eq {p : Filter e} {draft : Draft}
    (h : Query.visit e true p.toExpr Draft.empty = .ok draft)
    (hunmarked : ∀ name ∈ identNames draft.tokens, IsUnmarked name.toList)
    (hexposed : exposesName (writeTests .eq " IS NULL" draft.tokens) = false)
    (g : Engine) (row : Record e) : d.verdict g row p.toExpr = some (p.bareTruth g d row) := by
  obtain ⟨c, hc⟩ := visit_filter (P := fun _ => True) (fun _ _ _ _ => trivial) h
  have htokens : draft.tokens = c.tokens false := by simpa [Draft.empty, Draft.ofBound] using hc.tokens
  have hfinished : plainNullTests draft.tokens = finished (writeEqual (c.pieces false)) := by
    have htests := c.testsApart_pieces hc.under false []
    rw [htokens]
    simpa [Clause.tokens, plainNullTests, writeTests] using htests
  have hindices : indices (plainNullTests draft.tokens) =
      List.range (indices (plainNullTests draft.tokens)).length := by
    have hpieces : Finishes (c.pieces false) (writeEqual (c.pieces false)) :=
      finishes_clausePieces [c]
    have hsame : indices (plainNullTests draft.tokens) = indices draft.tokens := by
      rw [hfinished, indices_finished hpieces, htokens]
      rfl
    rw [hsame]
    exact Query.indices_visit h
  have hread : d.readCondition (NullTest.finish (d.write draft.tokens)) = some (c.condition d) := by
    have hwatched := Query.watched_visit (isPredicate_filter p) h hunmarked
    rw [Dialect.readCondition, hwatched.lexemes_finish hexposed hindices, hfinished]
    have hunder : ∀ c' ∈ [c], c'.Under fun _ => True := List.forall_mem_singleton.mpr hc.under
    exact conditionOf?_pieceLexemes hunder (by simp)
  have hplan : d.planQuery e (.call .filter [.source, p.toExpr]) =
      .ok (d.ofDraft (draft.setNested true)) := by
    refine planQuery_eq_ok.mpr ⟨draft.setNested true, ?_, rfl⟩
    rw [← Draft.empty, Query.visit_selection, h]
    rfl
  have hvalue := hc.stands g d row draft.values List.prefix_rfl
  simp only [Dialect.verdict, hplan, Except.toOption, Option.bind_eq_bind, Option.bind_some,
    Dialect.ofDraft, Draft.setNested, hread, hvalue]

end Sql

end SqlCompose
