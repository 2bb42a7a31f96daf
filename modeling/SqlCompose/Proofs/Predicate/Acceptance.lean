import SqlCompose.Proofs.Predicate.Trailing

/-!
# Which texts are predicates

A text is read as a predicate if it starts with a condition that query expressions can state and
what stands behind the condition passes. Semicolons pass; so do the clauses that are dropped and
the word `END`. All other texts are rejected with one kind of error, which keeps the text or the
part of it that has no counterpart.
-/

namespace SqlCompose.Predicate

open Reader

variable {d : Dialect} {rest : List Lexeme}

/-! ## Bare texts -/

/-- Semicolons start with no word. -/
theorem not_starts_of_isBare (h : IsBare rest) (k : String) (ks : List String) :
    startWith (k :: ks) rest = false := by
  cases rest with
  | nil => rfl
  | cons l more =>
    rw [h l (by simp)]
    rfl

/-- No clause of a selection stands in front of semicolons. -/
theorem innerClauses_of_isBare (h : IsBare rest) (lv : Level) :
    innerClauses d lv rest = some ([], rest) := by
  have hclause : ∀ {kind k ks p}, clause? kind (k :: ks) p rest = some ([], rest) :=
    clause?_of_not_starts (not_starts_of_isBare h _ _)
  have hwindows : windowClauses d lv rest = some ([], rest) :=
    bind_eq_some.mpr ⟨[], rest, hclause, bind_eq_some.mpr ⟨[], rest, hclause, rfl⟩⟩
  have hhierarchy : hierarchyClause lv rest = some ([], rest) := by
    refine bind_eq_some.mpr ⟨false, rest, keywords?_of_not_starts (not_starts_of_isBare h _ _), ?_⟩
    exact bind_eq_some.mpr
      ⟨false, rest, keywords?_of_not_starts (not_starts_of_isBare h _ _), rfl⟩
  refine bind_eq_some.mpr ⟨[], rest, hclause, bind_eq_some.mpr ⟨[], rest, hclause, ?_⟩⟩
  refine bind_eq_some.mpr ⟨[], rest, hclause, bind_eq_some.mpr ⟨[], rest, hclause, ?_⟩⟩
  refine bind_eq_some.mpr ⟨[], rest, hclause, bind_eq_some.mpr ⟨[], rest, hwindows, ?_⟩⟩
  cases hasTruthLiterals d with
  | true => rfl
  | false => exact bind_eq_some.mpr ⟨[], rest, hhierarchy, rfl⟩

/-- No clause about rows stands in front of semicolons. -/
theorem pageClauses_of_isBare (h : IsBare rest) (lv : Level) :
    pageClauses d lv rest = some ([], rest) := by
  have hlimit : limitText lv rest = some (none, rest) :=
    bind_eq_some.mpr ⟨none, rest, behind_of_not_starts (not_starts_of_isBare h _ _), rfl⟩
  have hoffset : offsetText lv rest = some (none, rest) :=
    behind_of_not_starts (not_starts_of_isBare h _ _)
  have hpage : Page.further d lv ⟨none, none⟩ rest = some (⟨none, none⟩, rest) := by
    rw [further_eq]
    exact bind_eq_some.mpr ⟨none, rest, hlimit, bind_eq_some.mpr ⟨none, rest, hoffset, rfl⟩⟩
  exact bind_eq_some.mpr ⟨_, rest, hpage, map_eq_some.mpr ⟨_, hpage, rfl⟩⟩

/-- No clause of a statement stands in front of semicolons. -/
theorem outerClauses_of_isBare (h : IsBare rest) (lv : Level) :
    outerClauses d lv rest = some ([], rest) := by
  have horder : orderingText lv rest = some (none, rest) :=
    bind_eq_some.mpr ⟨none, rest, behind_of_not_starts (not_starts_of_isBare h _ _), rfl⟩
  refine bind_eq_some.mpr ⟨none, rest, horder, bind_eq_some.mpr ⟨[], rest, ?_, ?_⟩⟩
  · exact pageClauses_of_isBare h lv
  · refine bind_eq_some.mpr ⟨[], rest, clause?_of_not_starts (not_starts_of_isBare h _ _), ?_⟩
    exact bind_eq_some.mpr ⟨[], rest, rowClauses_of_not_starts (not_starts_of_isBare h _ _), rfl⟩

/-- Semicolons alone may stand behind a condition. -/
theorem passes_of_isBare (h : IsBare rest) : Passes d rest :=
  ⟨[], [], rest, rest, innerClauses_of_isBare h _, fun _ _ => not_starts_of_isBare h _ _,
    outerClauses_of_isBare h _, rfl, rfl, .inl h⟩

/-! ## The statement that a text completes -/

/-- Nothing joins another selection when none of the words that join selections comes next. -/
theorem combinedText_eq_none {lv : Level} {left : List Lexeme}
    (h : combinedText d lv rest = some (none, left)) :
    left = rest ∧ ∀ k ∈ combiningWords, startWith [k] rest = false := by
  obtain ⟨word, between, hword, h⟩ := bind_eq_some.mp h
  cases word with
  | some op =>
    obtain ⟨each, r₁, -, h⟩ := bind_eq_some.mp h
    obtain ⟨m, r₂, -, h⟩ := bind_eq_some.mp h
    cases (pure_eq_some.mp h).1
  | none =>
    obtain ⟨-, rfl⟩ := pure_eq_some.mp h
    exact oneOf?_eq_none.mp hword

/-- No selection is combined with the first one if and only if no word for it follows. -/
theorem many_combinedText_eq_nil {lv : Level} {left : List Lexeme} :
    many (combinedText d lv) rest = some ([], left) ↔
      left = rest ∧ ∀ k ∈ combiningWords, startWith [k] rest = false := by
  constructor
  · intro h
    cases rest with
    | nil =>
      cases h
      exact ⟨rfl, fun _ _ => rfl⟩
    | cons l more =>
      obtain ⟨member, between, hmember, h⟩ := bind_eq_some.mp h
      cases member with
      | some text =>
        obtain ⟨texts, r, -, h⟩ := bind_eq_some.mp h
        cases (pure_eq_some.mp h).1
      | none =>
        obtain ⟨-, rfl⟩ := pure_eq_some.mp h
        exact combinedText_eq_none hmember
  · rintro ⟨rfl, hnone⟩
    exact many_of_none (bind_eq_some.mpr ⟨none, left, oneOf?_eq_none.mpr ⟨rfl, hnone⟩, rfl⟩)

/-- A statement is one selection when a term is read, then its clauses, and no word that joins
selections stands between. -/
theorem completedStatement_eq_selection {t : Term} {inner outer : List Clause}
    {left : List Lexeme} :
    completedStatement d rest = some (.selection t inner outer, left) ↔
      ∃ r between, (level d false conditionDepth).any rest = some (t, r) ∧
        innerClauses d (level d false conditionDepth) r = some (inner, between) ∧
        (∀ k ∈ combiningWords, startWith [k] between = false) ∧
        outerClauses d (level d false conditionDepth) between = some (outer, left) := by
  constructor
  · intro h
    obtain ⟨t', r, hcondition, h⟩ := bind_eq_some.mp h
    obtain ⟨inner', between, hinner, h⟩ := bind_eq_some.mp h
    obtain ⟨more, r', hmore, h⟩ := bind_eq_some.mp h
    obtain ⟨outer', r'', houter, h⟩ := bind_eq_some.mp h
    obtain ⟨hresult, rfl⟩ := pure_eq_some.mp h
    cases more with
    | cons text texts => cases hresult
    | nil =>
      cases hresult
      obtain ⟨rfl, hnone⟩ := many_combinedText_eq_nil.mp hmore
      exact ⟨r, r', hcondition, hinner, hnone, houter⟩
  · rintro ⟨r, between, hcondition, hinner, hnone, houter⟩
    refine bind_eq_some.mpr ⟨t, r, hcondition, bind_eq_some.mpr ⟨inner, between, hinner, ?_⟩⟩
    refine bind_eq_some.mpr ⟨[], between, many_combinedText_eq_nil.mpr ⟨rfl, hnone⟩, ?_⟩
    exact bind_eq_some.mpr ⟨outer, left, houter, rfl⟩

/-- A text is read as statements by its first one and those behind it. -/
theorem statements_eq_some {result : Completed} {count : Nat} {left : List Lexeme} :
    statements d rest = some ((result, count + 1), left) ↔
      ∃ r, completedStatement d rest = some (result, r) ∧
        furtherStatements d (r.length + 1) r = some (count, left) := by
  constructor
  · intro h
    obtain ⟨first, r, hfirst, h⟩ := bind_eq_some.mp h
    obtain ⟨further, r', hfurther, h⟩ := bind_eq_some.mp h
    obtain ⟨hresult, rfl⟩ := pure_eq_some.mp h
    obtain ⟨rfl, hcount⟩ := Prod.mk.inj hresult
    obtain rfl := Nat.succ.inj hcount
    exact ⟨r, hfirst, hfurther⟩
  · rintro ⟨r, hfirst, hfurther⟩
    exact bind_eq_some.mpr ⟨result, r, hfirst, bind_eq_some.mpr ⟨count, left, hfurther, rfl⟩⟩

/-- A statement is the condition of a predicate if it is one selection, the only statement, and
neither ordered nor cut nor grouped. -/
theorem condition_eq_ok {text : String} {result : Completed} {count : Nat} {t : Term} :
    condition text (result, count) = .ok t ↔
      count = 1 ∧ ∃ inner outer, result = .selection t inner outer ∧
        hasKind .grouping inner = false ∧ hasKind .ordering outer = false := by
  unfold condition
  split
  case h_1 t' inner outer heq =>
    obtain ⟨rfl, rfl⟩ := Prod.mk.inj heq
    simp only [Completed.selection.injEq, true_and]
    constructor
    · intro h
      split at h
      · cases h
      · rename_i hordering
        split at h
        · cases h
        · rename_i hgrouping
          obtain rfl := Except.ok.inj h
          exact ⟨inner, outer, ⟨rfl, rfl, rfl⟩, Bool.eq_false_iff.mpr hgrouping,
            Bool.eq_false_iff.mpr hordering⟩
    · rintro ⟨_, _, ⟨rfl, rfl, rfl⟩, hgrouping, hordering⟩
      rw [hordering, hgrouping]
      rfl
  case h_2 combined outer heq =>
    obtain ⟨rfl, rfl⟩ := Prod.mk.inj heq
    refine iff_of_false (fun h => ?_) nofun
    split at h <;> cases h
  case h_3 hselection _ heq =>
    obtain ⟨rfl, rfl⟩ := Prod.mk.inj heq
    refine iff_of_false nofun ?_
    rintro ⟨rfl, inner, outer, rfl, -, -⟩
    exact hselection t inner outer rfl rfl

/-- A text is read as a term if the term is the condition that it starts with and what stands behind
passes. -/
theorem readTerm_eq_ok {text : String} {t : Term} :
    readTerm d text = .ok t ↔ ∃ rest, conditionOf? d text = some (t, rest) ∧ Passes d rest := by
  unfold readTerm conditionOf?
  cases lex? d text with
  | none => exact iff_of_false (by simp) (by simp)
  | some lexemes =>
    rw [Option.bind_some, Option.bind_some]
    constructor
    · intro h
      split at h
      case h_2 => cases h
      case h_1 result left hstatements =>
        obtain ⟨result, count⟩ := result
        obtain ⟨rfl, inner, outer, rfl, hgrouping, hordering⟩ := condition_eq_ok.mp h
        obtain ⟨r, hfirst, hends⟩ := statements_eq_some.mp hstatements
        obtain ⟨rest, between, hcondition, hinner, hnone, houter⟩ :=
          completedStatement_eq_selection.mp hfirst
        exact ⟨rest, hcondition, inner, outer, between, r, hinner, hnone, houter, hgrouping,
          hordering, furtherStatements_eq_zero.mp ⟨left, hends⟩⟩
    · rintro ⟨rest, hcondition, inner, outer, between, r, hinner, hnone, houter, hgrouping,
        hordering, hends⟩
      obtain ⟨left, hends⟩ := furtherStatements_eq_zero.mpr hends
      have hstatements := statements_eq_some.mpr ⟨r, completedStatement_eq_selection.mpr
        ⟨rest, between, hcondition, hinner, hnone, houter⟩, hends⟩
      rw [StateT.run, hstatements]
      exact condition_eq_ok.mpr ⟨rfl, inner, outer, rfl, hgrouping, hordering⟩

/-! ## Rejections -/

/-- Whether a computation fails, if it does, with an unsupported shape. -/
def OnlyShapes {α : Type} (x : Except QueryError α) : Prop :=
  ∀ fault, x = .error fault → ∃ shape, fault = .unsupportedShape shape

namespace OnlyShapes

variable {α β : Type}

/-- A computation with a result fails with nothing. -/
theorem ok (a : α) : OnlyShapes (.ok a : Except QueryError α) := nofun

/-- An unsupported shape is an unsupported shape. -/
theorem error (shape : ShapeFault) :
    OnlyShapes (.error (.unsupportedShape shape) : Except QueryError α) := by
  rintro _ ⟨rfl⟩
  exact ⟨shape, rfl⟩

/-- Two computations that fail with unsupported shapes alone do so one after the other. -/
theorem bind {x : Except QueryError α} {f : α → Except QueryError β} (hx : OnlyShapes x)
    (hf : ∀ a, OnlyShapes (f a)) : OnlyShapes (x >>= f) := by
  cases x with
  | error fault => exact fun _ h => hx _ (by cases h; rfl)
  | ok a => exact hf a

/-- A computation that fails with unsupported shapes alone does so on a list. -/
theorem mapM {f : α → Except QueryError β} (hf : ∀ a, OnlyShapes (f a)) (xs : List α) :
    OnlyShapes (xs.mapM f) := by
  induction xs with
  | nil => exact .ok _
  | cons x xs ih =>
    rw [List.mapM_cons]
    exact (hf x).bind fun b => ih.bind fun bs => .ok _

end OnlyShapes

/-- Reading a number fails with an unsupported shape alone. -/
theorem onlyShapes_numberValue (digits : String) : OnlyShapes (numberValue digits) := by
  unfold numberValue
  split
  · exact .ok _
  · split
    · exact .ok _
    · exact .error _

/-- A literal fails to have a value with an unsupported shape alone. -/
theorem onlyShapes_value (l : Literal) : OnlyShapes l.value := by
  fun_cases Literal.value l
  · exact .ok _
  · exact .ok _
  · exact onlyShapes_numberValue _
  all_goals first | exact .ok _ | exact .error _

/-- An item of a list fails to have a value with an unsupported shape alone. -/
theorem onlyShapes_itemValue (t : Term) : OnlyShapes t.itemValue := by
  fun_cases Term.itemValue t
  · exact onlyShapes_value _
  · exact onlyShapes_numberValue _
  · exact .error _
  · exact .error _

/-- An operator fails to be one of the expressions with an unsupported shape alone. -/
theorem onlyShapes_toBinary (op : Infix) : OnlyShapes op.toBinary := by
  cases op with
  | known op => exact .ok _
  | foreign text => exact .error _

/-- A term fails to become an expression with an unsupported shape alone. -/
theorem onlyShapes_toExpr (t : Term) : OnlyShapes t.toExpr := by
  fun_induction Term.toExpr t with
  | case1 path => exact .ok _
  | case2 l => exact (onlyShapes_value l).bind fun _ => .ok _
  | case3 t ih => exact ih
  | case4 op left right ihl ihr =>
    exact ihl.bind fun _ => ihr.bind fun _ => (onlyShapes_toBinary op).bind fun _ => .ok _
  | case5 t ih => exact ih.bind fun _ => .ok _
  | case6 digits => exact (onlyShapes_numberValue _).bind fun _ => .ok _
  | case7 => exact .error _
  | case8 => exact .error _
  | case9 negated t ih => exact ih.bind fun _ => .ok _
  | case10 b t ih => exact ih.bind fun _ => .ok _
  | case11 negated t items ih =>
    exact (OnlyShapes.mapM onlyShapes_itemValue items).bind fun _ => ih.bind fun _ => .ok _
  | case12 => exact .error _
  | case13 => exact .error _

/-! ## Predicates -/

/-- A text is read as a predicate if and only if it starts with a condition that a query expression
states, and behind it nothing stands but semicolons, or a clause that is dropped, or the word `END`.
Every other text is rejected as an unsupported shape. -/
theorem readPredicate_eq_ok_iff (d : Dialect) (text : String) :
    (∀ e, d.readPredicate text = .ok e ↔
      ∃ t rest, conditionOf? d text = some (t, rest) ∧ t.toExpr = .ok e ∧
        (IsBare rest ∨ (∃ ks ∈ droppedStarts, startWith ks rest = true) ∧ Passes d rest)) ∧
    ∀ fault, d.readPredicate text = .error fault → ∃ shape, fault = .unsupportedShape shape := by
  have hends : ∀ {rest}, Passes d rest ↔
      IsBare rest ∨ (∃ ks ∈ droppedStarts, startWith ks rest = true) ∧ Passes d rest := by
    refine fun {rest} => ⟨fun h => ?_, ?_⟩
    · exact h.cases.imp_right fun hdropped => ⟨hdropped, h⟩
    · rintro (hbare | ⟨-, h⟩)
      · exact passes_of_isBare hbare
      · exact h
  unfold Dialect.readPredicate
  cases hterm : readTerm d text with
  | error shape =>
    refine ⟨fun e => iff_of_false nofun ?_, ?_⟩
    · rintro ⟨t, rest, hcondition, -, hpasses⟩
      cases hterm.symm.trans (readTerm_eq_ok.mpr ⟨rest, hcondition, hends.mpr hpasses⟩)
    · rintro _ ⟨rfl⟩
      exact ⟨shape, rfl⟩
  | ok t =>
    obtain ⟨rest, hcondition, hpasses⟩ := readTerm_eq_ok.mp hterm
    refine ⟨fun e => ⟨fun h => ⟨t, rest, hcondition, h, hends.mp hpasses⟩, ?_⟩,
      onlyShapes_toExpr t⟩
    rintro ⟨t', rest', hcondition', hexpr, -⟩
    obtain ⟨rfl, -⟩ := Prod.mk.inj (Option.some.inj (hcondition.symm.trans hcondition'))
    exact hexpr

/-- Rows to fetch, locks, windows, sortings, hierarchies and what follows `END` are dropped: the
predicate is the condition in front of them. -/
theorem ageTest_of_dropped :
    ([(Dialect.postgres, "FETCH FIRST 2 ROWS ONLY"), (.postgres, "FOR UPDATE"),
        (.postgres, "LIMIT ALL"), (.postgres, "WINDOW w AS (ORDER BY id)"),
        (.postgres, "QUALIFY age > 5"), (.postgres, "CLUSTER BY id"),
        (.postgres, "DISTRIBUTE BY id"), (.postgres, "SORT BY id"),
        (.sqlServer, "FOR XML AUTO"), (.sqlServer, "CONNECT BY id = boss START WITH id = 1"),
        (.sqlServer, "START WITH id = 1 CONNECT BY id = boss"),
        (.postgres, "END DELETE FROM users")].all fun (dialect, tail) =>
      match dialect.readPredicate ("age > 1 " ++ tail) with
      | .ok (.binary .gt (.col name) (.lit (.int bound))) => name == "age" && bound == 1
      | _ => false) = true := by
  decide +kernel

end SqlCompose.Predicate
