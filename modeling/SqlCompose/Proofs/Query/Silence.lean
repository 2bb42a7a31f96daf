import SqlCompose.Proofs.Query.Walk
import SqlCompose.Proofs.Text.Replacing

/-!
# Expressions that leave no condition

A walk shares its steps between queries and predicates, so a predicate may consist of steps that
write nothing, and may say how many rows are wanted. Both can be seen from the expression:
`Expr.isSilent` tells whether its condition is empty (`Dialect.fragment_eq_empty_iff`), and
`Expr.asksRows` whether a number of rows is recorded besides it (`Dialect.isSome_rows_iff`).
-/

namespace SqlCompose

/-! ## Expressions -/

/-- Whether a step says how many rows are skipped or taken. -/
def Operator.limits : Operator → Bool
  | .first | .firstOrDefault | .single | .singleOrDefault | .any | .take | .skip => true
  | _ => false

namespace Expr

/-- Whether an expression has no part that is written: it is the table, with steps that have no
predicate or an equally silent one. -/
def isSilent : Expr → Bool
  | .source => true
  | .unary .convert operand => operand.isSilent
  | .lambda _ body => body.isSilent
  | .call op [src] => op != .contains && src.isSilent
  | .call op (src :: arg :: _) =>
    op != .contains && (src.isSilent && (!Query.takesPredicate op || arg.isSilent))
  | .constant _ | .column _ | .captured _ | .binary _ _ _ | .unary .not _ | .call _ []
  | .param _ | .construct _ => false

/-- Whether an expression says, at a place that a walk comes to, how many rows are skipped or
taken. -/
def asksRows : Expr → Bool
  | .binary _ left right => left.asksRows || right.asksRows
  | .unary _ operand => operand.asksRows
  | .lambda _ body => body.asksRows
  | .call op [src] => src.asksRows || op.limits
  | .call op (src :: arg :: _) =>
    op != .contains &&
      (src.asksRows || (Query.takesPredicate op && arg.asksRows) || op.limits)
  | .source | .constant _ | .column _ | .captured _ | .call _ [] | .param _ | .construct _ => false

@[simp] theorem isSilent_toLambda (x : Expr) : x.toLambda.isSilent = x.isSilent := by
  rfl

@[simp] theorem asksRows_toLambda (x : Expr) : x.toLambda.asksRows = x.asksRows := by
  rfl

section Steps

variable {op : Operator}

/-- A step with a predicate is silent when the query and the predicate are. -/
theorem isSilent_filter (hop : Query.takesPredicate op = true) (src arg : Expr)
    (rest : List Expr) : (call op (src :: arg :: rest)).isSilent =
      (src.isSilent && arg.isSilent) := by
  have hne : (op != .contains) = true := bne_iff_ne.mpr (by rintro rfl; cases hop)
  simp [isSilent, hop, hne]

/-- A step with a predicate says how many rows when the query, the predicate or the step itself
does. -/
theorem asksRows_filter (hop : Query.takesPredicate op = true) (src arg : Expr)
    (rest : List Expr) : (call op (src :: arg :: rest)).asksRows =
      (src.asksRows || arg.asksRows || op.limits) := by
  have hne : (op != .contains) = true := bne_iff_ne.mpr (by rintro rfl; cases hop)
  simp [asksRows, hop, hne]

/-- A step without a predicate is as silent as the query it extends. -/
theorem isSilent_step (hop : Query.takesPredicate op = false) (hne : op ≠ .contains) (src : Expr)
    (args : List Expr) : (call op (src :: args)).isSilent = src.isSilent := by
  cases args <;> simp [isSilent, hop, hne]

/-- A step without a predicate says how many rows when the query or the step itself does. -/
theorem asksRows_step (hop : Query.takesPredicate op = false) (hne : op ≠ .contains) (src : Expr)
    (args : List Expr) : (call op (src :: args)).asksRows = (src.asksRows || op.limits) := by
  cases args <;> simp [asksRows, hop, hne]

end Steps

end Expr

/-! ## Drafts -/

namespace Draft

/-- Whether nothing has been written. -/
def isBlank (d : Draft) : Bool := d.tokens.isEmpty

/-- Whether a draft says how many rows are skipped or taken. -/
def isLimited (d : Draft) : Bool := d.skip.isSome || d.take.isSome

section Simp

variable (d : Draft)

@[simp] theorem isBlank_put (t : Token) : (d.put t).isBlank = false := by simp [isBlank, put]

@[simp] theorem isBlank_bind (v : Value) : (d.bind v).isBlank = false := d.isBlank_put _

@[simp] theorem isBlank_setNested (b : Bool) : (d.setNested b).isBlank = d.isBlank := rfl

@[simp] theorem isBlank_truth (b : Bool) : (d.truth b).isBlank = false := d.isBlank_put _

@[simp] theorem isBlank_boolTest (column : String) (b : Bool) :
    (d.boolTest column b).isBlank = false := isBlank_bind _ (.bool b)

@[simp] theorem isBlank_ended (wrap : Bool) : (d.ended wrap).isBlank = (!wrap && d.isBlank) := by
  cases wrap <;> simp [ended]

@[simp] theorem isBlank_beginFilter : d.beginFilter.isBlank = d.isBlank := by
  cases h : d.tokens <;> simp [beginFilter, isBlank, openGroup, setNested, h]

@[simp] theorem isBlank_endFilter (first : Bool) :
    (d.endFilter first).isBlank = (first && d.isBlank) := by
  cases first <;> simp [endFilter]

@[simp] theorem isBlank_afterFilter (op : Operator) :
    (Query.afterFilter op d).isBlank = d.isBlank := by
  cases op <;> rfl

@[simp] theorem isLimited_put (t : Token) : (d.put t).isLimited = d.isLimited := rfl

@[simp] theorem isLimited_bind (v : Value) : (d.bind v).isLimited = d.isLimited := rfl

@[simp] theorem isLimited_setNested (b : Bool) : (d.setNested b).isLimited = d.isLimited := rfl

@[simp] theorem isLimited_truth (b : Bool) : (d.truth b).isLimited = d.isLimited := rfl

@[simp] theorem isLimited_boolTest (column : String) (b : Bool) :
    (d.boolTest column b).isLimited = d.isLimited := rfl

@[simp] theorem isLimited_begun (wrap : Bool) : (d.begun wrap).isLimited = d.isLimited := by
  cases wrap <;> rfl

@[simp] theorem isLimited_ended (wrap : Bool) : (d.ended wrap).isLimited = d.isLimited := by
  cases wrap <;> rfl

@[simp] theorem isLimited_beginFilter : d.beginFilter.isLimited = d.isLimited := by
  unfold beginFilter
  split <;> rfl

@[simp] theorem isLimited_endFilter (first : Bool) :
    (d.endFilter first).isLimited = d.isLimited := by
  cases first <;> rfl

@[simp] theorem isLimited_afterFilter {op : Operator} (h : Query.takesPredicate op = true) :
    (Query.afterFilter op d).isLimited = (d.isLimited || op.limits) := by
  cases op <;> simp [Query.afterFilter, isLimited, Operator.limits] <;> cases h

end Simp

end Draft

namespace Query

variable {e : Entity}

/-! ## The walk -/

/-- What can be told of a draft from the one that a walk over an expression began with. -/
structure Leaves (x : Expr) (d d' : Draft) : Prop where
  isBlank : d'.isBlank = (d.isBlank && x.isSilent)
  isLimited : d'.isLimited = (d.isLimited || x.asksRows)

/-- A draft in which something was written, with the numbers of rows as they were. -/
structure Writes (d d' : Draft) : Prop where
  isBlank : d'.isBlank = false
  isLimited : d'.isLimited = d.isLimited

/-- A draft in which something was written is what an expression leaves that is not silent and says
nothing of rows. -/
theorem Writes.leaves {x : Expr} {d d' : Draft} (h : Writes d d') (hx : x.isSilent = false)
    (hr : x.asksRows = false) : Leaves x d d' :=
  ⟨by simp [h.isBlank, hx], by simp [h.isLimited, hr]⟩

/-- A bound value writes something. -/
theorem writes_value {d d' : Draft} {v : Value} (h : d.value v = .ok d') : Writes d d' := by
  rcases Draft.value_eq_ok.mp h with ⟨-, rfl⟩ | ⟨-, rfl⟩ <;> exact ⟨by simp, by simp⟩

/-- A written value writes something. -/
theorem writes_literal {p : Bool} {d d' : Draft} {v : Value} (h : d.literal p v = .ok d') :
    Writes d d' := by
  rcases Draft.literal_cases h with ⟨b, -, -, rfl⟩ | ⟨-, hvalue⟩
  · exact ⟨by simp, by simp⟩
  · exact writes_value hvalue

/-- A bound list says nothing about rows. -/
theorem isLimited_valueList {vs : List Value} {d d' : Draft} (h : d.valueList vs = .ok d') :
    d'.isLimited = d.isLimited := by
  induction vs generalizing d with
  | nil => cases h; rfl
  | cons v vs ih =>
    cases vs with
    | nil => exact (writes_value h).isLimited
    | cons w vs =>
      obtain ⟨d₁, h₁, h⟩ := bind_eq_ok.mp h
      rw [ih h, Draft.isLimited_put, (writes_value h₁).isLimited]

/-- A membership test writes something. -/
theorem writes_contains {collection item : Expr} {d d' : Draft}
    (h : contains e collection item d = .ok d') : Writes d d' := by
  obtain ⟨items, -, h⟩ := bind_eq_ok.mp h
  split at h
  · cases h; exact ⟨by simp, by simp⟩
  · obtain ⟨column, -, h⟩ := bind_eq_ok.mp h
    obtain ⟨d₁, hlist, h⟩ := bind_eq_ok.mp h
    cases h
    exact ⟨by simp, by simp [isLimited_valueList hlist]⟩

/-- A step without a predicate writes nothing, and records what it is there for. -/
theorem leaves_applyStep {op : Operator} {arg : Option Expr} {d d' : Draft}
    (hop : takesPredicate op = false) (h : applyStep e op arg d = .ok d') :
    d'.isBlank = d.isBlank ∧ d'.isLimited = (d.isLimited || op.limits) := by
  refine ⟨by rw [Draft.isBlank, (applyStep_condition h).1, Draft.isBlank], ?_⟩
  cases applied_of_applyStep h with
  | take | skip | select => simp [Draft.isLimited, Operator.limits]
  | order hsorts => rcases hsorts with rfl | rfl <;> simp [Draft.isLimited, Operator.limits]
  | other hother =>
    rcases hother with htakes | rfl
    · rw [hop] at htakes
      cases htakes
    · simp [Operator.limits]

/-- A comparison or a connective writes its sign at least, and asks for rows if an operand does. -/
theorem leaves_operands {x y : Expr} {op : BinaryOp} {wrap : Bool} {d d₁ d₂ : Draft}
    (first : Leaves x (d.begun wrap) d₁) (second : Leaves y (d₁.put (.op op)) d₂) :
    (d₂.ended wrap).isBlank = false ∧
      (d₂.ended wrap).isLimited = (d.isLimited || (x.asksRows || y.asksRows)) := by
  refine ⟨by simp [second.isBlank], ?_⟩
  rw [Draft.isLimited_ended, second.isLimited, Draft.isLimited_put, first.isLimited,
    Draft.isLimited_begun, Bool.or_assoc]

/-- A walk over an expression leaves a blank draft blank just when the expression is silent, and
limits rows only if it asks for it. Behind a blank draft the condition of a step stands without a
group, which would not be blank. -/
theorem Walked.leaves {p : Bool} {x : Expr} {d d' : Draft} (h : Walked e p x d d') :
    Leaves x d d' := by
  induction h with
  | source => exact ⟨by simp [Expr.isSilent], by simp [Expr.asksRows]⟩
  | constant h | captured hv h => exact (writes_literal h).leaves rfl rfl
  | column | test | negatedTest => exact Writes.leaves ⟨by simp, by simp⟩ rfl rfl
  | binary hswap _ _ ihl ihr =>
    obtain ⟨hblank, hlimited⟩ := leaves_operands ihl ihr
    exact ⟨by simp [hblank, Expr.isSilent], by rw [hlimited, Expr.asksRows]⟩
  | @exchanged p op left right d d₁ d₂ hswap _ _ ihr ihl =>
    obtain ⟨hblank, hlimited⟩ := leaves_operands ihr ihl
    refine ⟨by simp [hblank, Expr.isSilent], ?_⟩
    rw [hlimited, Expr.asksRows, Bool.or_comm right.asksRows left.asksRows]
  | convert _ ih | lambda _ ih => exact ⟨ih.isBlank, ih.isLimited⟩
  | not hnone _ ih => exact ⟨by simp [Expr.isSilent], by simp [ih.isLimited, Expr.asksRows]⟩
  | contains h => exact (writes_contains h).leaves rfl rfl
  | @filter p op src arg rest d d₁ d₂ hop _ _ hsource hcondition =>
    have hblank : (d₂.endFilter d₁.tokens.isEmpty).isBlank = (d₁.isBlank && arg.isSilent) := by
      rw [Draft.isBlank_endFilter, hcondition.isBlank, ← Draft.isBlank]
      simp
    refine ⟨?_, ?_⟩
    · simp [hblank, hsource.isBlank, Expr.isSilent_filter hop, Bool.and_assoc]
    · simp [hop, hcondition.isLimited, hsource.isLimited, Expr.asksRows_filter hop, Bool.or_assoc]
  | @unfiltered p op src d d₁ hop _ ih =>
    have hne : (op != .contains) = true := bne_iff_ne.mpr (by rintro rfl; cases hop)
    refine ⟨?_, ?_⟩
    · simp [ih.isBlank, Expr.isSilent, hne]
    · simp [hop, ih.isLimited, Expr.asksRows, Bool.or_assoc]
  | step hop hne _ h ih =>
    obtain ⟨hblank, hlimited⟩ := leaves_applyStep hop h
    refine ⟨?_, ?_⟩
    · rw [hblank, ih.isBlank, Expr.isSilent_step hop hne]
    · rw [hlimited, ih.isLimited, Expr.asksRows_step hop hne, Bool.or_assoc]

/-- A walk over an expression writes unless the expression is silent, and records a number of rows
if the expression asks for one. -/
theorem leaves_visit {p : Bool} {x : Expr} {d d' : Draft} (h : visit e p x d = .ok d') :
    Leaves x d d' :=
  (visit_eq_ok.mp h).leaves

/-- No step writes an empty word. -/
theorem visible_step {d d' : Draft} (h : Step e d d') (hd : ∀ t ∈ d.tokens, t ≠ .word "") :
    ∀ t ∈ d'.tokens, t ≠ .word "" := by
  have hput {t : Token} (ht : t ≠ .word "") : ∀ u ∈ (d.put t).tokens, u ≠ .word "" := by
    simpa [Draft.put, or_imp, forall_and] using ⟨hd, ht⟩
  cases h with
  | column | op | null | bind | truth => exact hput (by simp)
  | opening _ hword | word _ hword =>
    refine hput ?_
    rintro ⟨rfl⟩
    revert hword
    decide
  | nested => exact hd
  | group =>
    unfold Draft.openGroup
    cases d.grouped <;> simpa [or_imp, forall_and] using hd
  | afterFilter op => cases op <;> exact hd
  | applied h => rwa [(applyStep_condition h).1]

end Query

/-! ## Texts -/

namespace NullTest

/-- Settling groups leaves nothing only where there was nothing. -/
theorem settleGroups_eq_nil {text : List Char} : settleGroups text = [] ↔ text = [] := by
  have hphrase : differsFromNull ++ [')'] ≠ [] := by simp
  have htext := Text.intercalate_splitOn hphrase text
  have hgroup (before : List Char) : settleGroup before ≠ [] := by
    unfold settleGroup
    split <;> simp
  unfold settleGroups
  match hpieces : Text.splitOn (differsFromNull ++ [')']) text with
  | [] => exact absurd hpieces (Text.splitOn_ne_nil _ _)
  | [last] =>
    obtain rfl : last = text := by simpa [hpieces] using htext
    rfl
  | before :: next :: pieces =>
    have hne : text ≠ [] := by
      rw [← htext, hpieces, List.intercalate_cons_cons]
      simp
    simp [settlePieces, hgroup, hne]

/-- A condition is empty with its null tests only if it was empty without them. -/
theorem finish_eq_empty {text : String} : finish text = "" ↔ text = "" := by
  have heq : equalsNull ≠ [] := by decide
  have hne : differsFromNull ≠ [] := by decide
  have hmark : nullMark.toList ≠ [] := by decide
  rw [finish, String.ofList_eq_empty_iff, ← String.toList_eq_nil_iff (b := text)]
  unfold finishChars
  rw [Text.replaceAll_eq_nil hmark _ (by decide), Text.replaceAll_eq_nil hne _ (by decide),
    settleGroups_eq_nil, Text.replaceAll_eq_nil heq _ (by decide)]

end NullTest

namespace Dialect

variable {d : Dialect}

/-- No token but the empty word has an empty text. -/
theorem tokenText_ne_empty {t : Token} (h : t ≠ .word "") : d.tokenText t ≠ "" := by
  cases t with
  | word text => simpa [tokenText] using h
  | ident name => simp [tokenText, quote, quoteChars]
  | param index => cases d <;> simp [tokenText, placeholder, placeholderStyle]
  | op op => cases op <;> cases d <;> decide
  | null => cases d <;> decide
  | truth b => cases b <;> cases d <;> decide

/-- Tokens without an empty word have the empty text only if there are none. -/
theorem write_eq_empty {tokens : List Token} (h : ∀ t ∈ tokens, t ≠ .word "") :
    d.write tokens = "" ↔ tokens = [] := by
  rw [← String.toList_eq_nil_iff, toList_write]
  cases tokens with
  | nil => simp
  | cons t tokens => simp [tokenText_ne_empty (h t (by simp))]

variable {e : Entity}

/-- The text of a walk is empty if and only if the expression is silent. -/
theorem finish_write_eq_empty_iff {p : Bool} {x : Expr} {bound : List Value} {draft : Draft}
    (h : Query.visit e p x (Draft.ofBound bound) = .ok draft) :
    NullTest.finish (d.write draft.tokens) = "" ↔ x.isSilent = true := by
  have hvisible : ∀ t ∈ draft.tokens, t ≠ .word "" :=
    (Query.walk h (Draft.open_of_tokens_eq_nil rfl)).invariant
      (fun _ _ => Query.visible_step) (by simp [Draft.ofBound])
  have hblank : draft.isBlank = x.isSilent := (Query.leaves_visit h).isBlank
  rw [NullTest.finish_eq_empty, write_eq_empty hvisible, ← hblank, Draft.isBlank,
    List.isEmpty_iff]

/-! ## Plans of predicates -/

variable {predicate : Expr} {bound : List Value} {plan : Plan}

/-- The condition of a predicate is empty if and only if the predicate is silent. -/
theorem fragment_eq_empty_iff (h : d.planFilter e predicate bound = .ok plan) :
    plan.fragment = "" ↔ predicate.isSilent = true := by
  obtain ⟨draft, hvisit, rfl⟩ := planFilter_eq_ok.mp h
  show NullTest.finish (d.write draft.tokens) = "" ↔ _
  exact finish_write_eq_empty_iff hvisit

/-- The plan of a predicate says how many rows are skipped or taken if and only if the predicate
asks for it. -/
theorem isSome_rows_iff (h : d.planFilter e predicate bound = .ok plan) :
    (plan.skip.isSome || plan.take.isSome) = predicate.asksRows := by
  obtain ⟨draft, hvisit, rfl⟩ := planFilter_eq_ok.mp h
  have hlimited := (Query.leaves_visit hvisit).isLimited
  rwa [show (Draft.ofBound bound).isLimited = false from rfl, Bool.false_or] at hlimited

end Dialect

end SqlCompose
