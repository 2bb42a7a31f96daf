import SqlCompose.Proofs.Condition.Marked
import SqlCompose.Proofs.Query.Independence
import SqlCompose.Proofs.Query.Placeholders

/-!
# The columns of a condition

A walk over a predicate names the columns that the predicate refers to, in their order
(`Query.references_visit`), and no group of what it writes is one inequality with null alone. So
the null tests keep these names, exactly if none of them holds the mark of a null operand or is
exposed (`identifiers_planFilter`).
-/

namespace SqlCompose

/-! ## References -/

namespace Expr

/-- What a predicate calls the columns that it refers to, in the order in which a walk comes to
them. A membership test in the empty collection refers to no column. -/
def references : Expr → List String
  | .column name => [name]
  | .binary _ left right => left.references ++ right.references
  | .unary _ operand => operand.references
  | .lambda _ body => body.references
  | .call .contains [collection, item] =>
    match collection.items with
    | .ok [] => []
    | _ => item.memberName?.toList
  | _ => []

/-- A null refers to no column. -/
theorem references_of_isNull {x : Expr} (h : x.isNull = .ok true) : x.references = [] := by
  fun_induction isNull x with
  | case1 | case2 => rfl
  | case3 operand ih => exact ih h
  | case4 => cases h

end Expr

/-! ## Guarded tokens -/

namespace Sql

/-- Whether a watch reads tokens without a stop, whatever it has read before, and without a trace
where nothing could be settled. -/
def Guarded (ts : List Token) : Prop :=
  ∀ w : Watch, ∃ w', w.run ts = some w' ∧ (w = .free → w' = .free)

namespace Guarded

variable {a b : List Token}

/-- Guarded tokens side by side are guarded. -/
theorem append (ha : Guarded a) (hb : Guarded b) : Guarded (a ++ b) := by
  intro w
  obtain ⟨w₁, hrun₁, hfree₁⟩ := ha w
  obtain ⟨w₂, hrun₂, hfree₂⟩ := hb w₁
  refine ⟨w₂, ?_, hfree₂ ∘ hfree₁⟩
  rw [Watch.run_append, hrun₁]
  exact hrun₂

/-- A token that is no word. -/
theorem singleton {t : Token} (ht : ∀ text, t ≠ .word text) : Guarded [t] := by
  intro w
  cases t with
  | word text => exact absurd rfl (ht text)
  | ident | param | null | truth => cases w <;> exact ⟨_, rfl, by simp⟩
  | op op => cases w <;> cases op <;> exact ⟨_, rfl, by simp⟩

/-- Tokens behind a word that takes away what was read. -/
theorem restart {word : String} {w : Watch} (hword : ∀ v : Watch, v.step (.word word) = some w)
    (ha : w.run a = some .free) : Guarded (.word word :: a) := by
  intro v
  refine ⟨.free, ?_, fun _ => rfl⟩
  rw [Watch.run_cons, hword v]
  exact ha

/-- Where nothing could be settled, nothing can be behind guarded tokens either. -/
theorem run_free (ha : Guarded a) : Watch.run .free a = some .free := by
  obtain ⟨w, hrun, hfree⟩ := ha .free
  rw [hrun, hfree rfl]

/-- A negation. -/
theorem negated (ha : Guarded a) : Guarded (.word "NOT (" :: (a ++ [.word ")"])) := by
  refine restart (w := .free) (fun v => by cases v <;> rfl) ?_
  rw [Watch.run_append, ha.run_free]
  rfl

/-- A connective in parentheses. -/
theorem connected {op : BinaryOp} (hop : op.isLogical = true) (ha : Guarded a) (hb : Guarded b) :
    Guarded (.word "(" :: (a ++ .op op :: b ++ [.word ")"])) := by
  refine restart (w := .group) (fun v => by cases v <;> rfl) ?_
  obtain ⟨w, hleft, -⟩ := ha .group
  have hconnective : w.step (.op op) = some .free := by
    cases op <;> cases hop <;> cases w <;> rfl
  have hright : w.run (.op op :: b) = some .free := by
    rw [Watch.run_cons, hconnective]
    exact hb.run_free
  rw [Watch.run_append, Watch.run_append, hleft]
  show (w.run (.op op :: b)).bind _ = _
  rw [hright]
  rfl

/-- A list of values for a column to be among. -/
theorem listed (column : String)
    (ha : ∀ t ∈ a, t = .null ∨ t = .word ", " ∨ ∃ index, t = .param index) :
    Guarded (.ident column :: .word " IN (" :: (a ++ [.word ")"])) := by
  have hitems : Watch.run .group a = some .group := by
    induction a with
    | nil => rfl
    | cons t a ih =>
      obtain ⟨ht, hrest⟩ := List.forall_mem_cons.mp ha
      have hstep : Watch.step .group t = some .group := by
        rcases ht with rfl | rfl | ⟨index, rfl⟩ <;> rfl
      rw [Watch.run_cons, hstep]
      exact ih hrest
  refine (singleton (t := .ident column) nofun).append
    (restart (w := .group) (fun v => by cases v <;> rfl) ?_)
  rw [Watch.run_append, hitems]
  rfl

end Guarded

end Sql

/-! ## Walks -/

namespace Query

open Sql (Guarded Watch)

variable {e : Entity}

/-- What a value is written as. -/
theorem tokens_value {d d' : Draft} {v : Value} (h : d.value v = .ok d') :
    ∃ t, d'.tokens = d.tokens ++ [t] ∧ (t = .null ∨ ∃ index, t = .param index) := by
  rcases Draft.value_eq_ok.mp h with ⟨-, rfl⟩ | ⟨-, rfl⟩
  · exact ⟨.null, rfl, .inl rfl⟩
  · exact ⟨_, rfl, .inr ⟨_, rfl⟩⟩

/-- A bound list writes nulls, parameters and the commas between them. -/
theorem tokens_valueList {vs : List Value} {d d' : Draft} (h : d.valueList vs = .ok d') :
    ∃ ts, d'.tokens = d.tokens ++ ts ∧
      ∀ t ∈ ts, t = .null ∨ t = .word ", " ∨ ∃ index, t = .param index := by
  induction vs generalizing d with
  | nil =>
    cases h
    exact ⟨[], by simp, by simp⟩
  | cons v vs ih =>
    cases vs with
    | nil =>
      obtain ⟨t, htokens, ht⟩ := tokens_value h
      refine ⟨[t], htokens, fun u hu => ?_⟩
      rw [List.mem_singleton.mp hu]
      exact ht.imp_right .inr
    | cons w vs =>
      obtain ⟨d₁, h₁, h⟩ := bind_eq_ok.mp h
      obtain ⟨t, htokens, ht⟩ := tokens_value h₁
      obtain ⟨ts, hrest, hts⟩ := ih h
      refine ⟨t :: .word ", " :: ts, by simp [hrest, Draft.put, htokens], ?_⟩
      rw [List.forall_mem_cons, List.forall_mem_cons]
      exact ⟨ht.imp_right .inr, .inr (.inl rfl), hts⟩

/-- What a walk over a predicate writes behind a draft: guarded tokens, whose names are those of
the columns that the predicate refers to. -/
def Refers (e : Entity) (x : Expr) (d d' : Draft) : Prop :=
  ∃ ts, d'.tokens = d.tokens ++ ts ∧ Guarded ts ∧
    x.references.mapM e.columnName = .ok (identNames ts)

/-- A written value refers to no column. -/
theorem refers_literal {x : Expr} {p : Bool} {d d' : Draft} {v : Value} (hx : x.references = [])
    (h : d.literal p v = .ok d') : Refers e x d d' := by
  have htoken : ∃ t, d'.tokens = d.tokens ++ [t] ∧ (∀ text, t ≠ .word text) ∧
      ∀ name, t ≠ .ident name := by
    rcases Draft.literal_cases h with ⟨b, -, -, rfl⟩ | ⟨-, hvalue⟩
    · exact ⟨.truth b, rfl, nofun, nofun⟩
    · obtain ⟨t, htokens, ht⟩ := tokens_value hvalue
      refine ⟨t, htokens, ?_⟩
      rcases ht with rfl | ⟨index, rfl⟩
      · exact ⟨nofun, nofun⟩
      · exact ⟨nofun, nofun⟩
  obtain ⟨t, htokens, hword, hident⟩ := htoken
  refine ⟨[t], htokens, .singleton hword, ?_⟩
  rw [hx, identNames_cons hident]
  rfl

/-- The test of a column of truth values refers to that column. -/
theorem refers_boolTest {x : Expr} {name column : String} (hx : x.references = [name])
    (h : e.columnName name = .ok column) (d : Draft) (b : Bool) :
    Refers e x d (d.boolTest column b) := by
  refine ⟨[.ident column, .op .eq, .param d.values.length], ?_, ?_, ?_⟩
  · simp [Draft.boolTest, Draft.bind, Draft.put]
  · have hname : Guarded [.ident column] := .singleton (by simp)
    have hop : Guarded [.op .eq] := .singleton (by simp)
    exact hname.append (hop.append (.singleton (by simp)))
  · rw [hx, List.mapM_cons, h]
    rfl

/-- A membership test refers to the column of its item, if the collection is not empty. -/
theorem refers_contains {collection item : Expr} {d d' : Draft}
    (h : contains e collection item d = .ok d') :
    Refers e (.call .contains [collection, item]) d d' := by
  obtain ⟨items, hitems, h⟩ := bind_eq_ok.mp h
  split at h
  next hempty =>
    obtain rfl := List.isEmpty_iff.mp hempty
    cases h
    refine ⟨[.truth false], rfl, .singleton nofun, ?_⟩
    rw [Expr.references, hitems]
    rfl
  next hne =>
    obtain ⟨column, hcolumn, h⟩ := bind_eq_ok.mp h
    obtain ⟨d₁, hlist, h⟩ := bind_eq_ok.mp h
    cases h
    obtain ⟨ts, htokens, hts⟩ := tokens_valueList hlist
    obtain ⟨name, hname, hcolumnName⟩ := memberName_of_member hcolumn
    refine ⟨.ident column :: .word " IN (" :: (ts ++ [Token.word ")"]), ?_, .listed column hts, ?_⟩
    · simp [Draft.put, Draft.setNested, htokens]
    · have hreferences : (Expr.call .contains [collection, item]).references = [name] := by
        rw [Expr.references, hitems]
        cases items with
        | nil => exact absurd rfl hne
        | cons => rw [hname]; rfl
      have hnone : identNames ts = [] := by
        refine List.filterMap_eq_nil_iff.mpr fun t ht => ?_
        rcases hts t ht with rfl | rfl | ⟨index, rfl⟩ <;> rfl
      have hnames : identNames (.ident column :: .word " IN (" :: (ts ++ [.word ")"])) =
          [column] := by
        show column :: identNames (ts ++ [Token.word ")"]) = [column]
        rw [identNames_append, hnone]
        rfl
      rw [hreferences, hnames, List.mapM_cons, hcolumnName]
      rfl

/-- A comparison or a connective refers to what its operands do. -/
theorem refers_binary {x first second : Expr} {op : BinaryOp} {wrap : Bool} {d d₁ d₂ : Draft}
    (hwrap : wrap = true → op.isLogical = true)
    (hx : x.references = first.references ++ second.references)
    (h₁ : Refers e first (d.begun wrap) d₁) (h₂ : Refers e second (d₁.put (.op op)) d₂) :
    Refers e x d (d₂.ended wrap) := by
  obtain ⟨ts₁, htokens₁, hguarded₁, hnames₁⟩ := h₁
  obtain ⟨ts₂, htokens₂, hguarded₂, hnames₂⟩ := h₂
  have hnames : x.references.mapM e.columnName = .ok (identNames (ts₁ ++ .op op :: ts₂)) := by
    rw [hx, List.mapM_append, hnames₁, hnames₂, identNames_append]
    rfl
  cases wrap with
  | false =>
    have hop : Guarded [.op op] := .singleton nofun
    refine ⟨ts₁ ++ .op op :: ts₂, ?_, hguarded₁.append (hop.append hguarded₂), hnames⟩
    show d₂.tokens = _
    rw [htokens₂, Draft.put, htokens₁]
    simp [Draft.begun, Draft.setNested]
  | true =>
    refine ⟨.word "(" :: (ts₁ ++ .op op :: ts₂ ++ [Token.word ")"]), ?_,
      hguarded₁.connected (hwrap rfl) hguarded₂, ?_⟩
    · show d₂.tokens ++ [Token.word ")"] = _
      rw [htokens₂, Draft.put, htokens₁]
      simp [Draft.begun, Draft.setNested, Draft.put]
    · rw [hnames, identNames_cons (by simp), identNames_append _ [.word ")"]]
      exact congrArg Except.ok (List.append_nil _).symm

/-- A walk over a predicate writes guarded tokens with the names of the columns it refers to, in
order. Only a null operand changes places, which refers to no column, and a step is no part of a
predicate. -/
theorem Walked.refers {p : Bool} {x : Expr} {d d' : Draft} (h : Walked e p x d d')
    (hx : x.isPredicate = true) : Refers e x d d' := by
  have hwrap {op : BinaryOp} {nested : Bool} :
      (op.isLogical && nested) = true → op.isLogical = true :=
    fun hboth => (Bool.and_eq_true_iff.mp hboth).1
  induction h with
  | source => cases hx
  | constant h | captured hv h => exact refers_literal rfl h
  | @column p name column d hb hcolumn =>
    refine ⟨[.ident column], rfl, .singleton nofun, ?_⟩
    rw [Expr.references, List.mapM_cons, hcolumn]
    rfl
  | test hb hcolumn => exact refers_boolTest rfl hcolumn _ true
  | binary hswap _ _ ihl ihr =>
    obtain ⟨hleft, hright⟩ := Bool.and_eq_true_iff.mp hx
    exact refers_binary hwrap rfl (ihl hleft) (ihr hright)
  | @exchanged p op left right d d₁ d₂ hswap _ _ ihr ihl =>
    obtain ⟨hleft, hright⟩ := Bool.and_eq_true_iff.mp hx
    have hnull : left.references = [] := Expr.references_of_isNull (isNull_of_swap hswap)
    refine refers_binary hwrap ?_ (ihr hright) (ihl hleft)
    rw [Expr.references, hnull, List.append_nil]
    rfl
  | convert _ ih | lambda _ ih => exact ih hx
  | negatedTest hb hcolumn => exact refers_boolTest rfl hcolumn _ false
  | @not p x d d₁ hnone _ ih =>
    obtain ⟨ts, htokens, hguarded, hnames⟩ := ih hx
    refine ⟨.word "NOT (" :: (ts ++ [Token.word ")"]), ?_, hguarded.negated, ?_⟩
    · simp [Draft.put, Draft.setNested, htokens]
    · rw [Expr.references, hnames, identNames_cons (by simp), identNames_append]
      exact congrArg Except.ok (List.append_nil _).symm
  | contains h => exact refers_contains h
  | filter hop | unfiltered hop =>
    obtain rfl := eq_of_beq hx
    cases hop
  | step hop hne => exact absurd (eq_of_beq hx) hne

/-- A walk over a predicate names its columns in their order. -/
theorem references_visit {p : Bool} {x : Expr} (hx : x.isPredicate = true) {d d' : Draft}
    (h : visit e p x d = .ok d') : Refers e x d d' :=
  (visit_eq_ok.mp h).refers hx

/-- The tokens of a predicate under unmarked names are those of a condition in which no group is one
inequality with null alone. -/
theorem watched_visit {p : Bool} {x : Expr} (hx : x.isPredicate = true) {bound : List Value}
    {d : Draft} (h : visit e p x (Draft.ofBound bound) = .ok d)
    (hnames : ∀ name ∈ identNames d.tokens, Sql.IsUnmarked name.toList) : Sql.Watched d.tokens where
  chain := ((numbered_visit h).readable .mySql).chain
  unmarked := by
    have hwords : ∀ word ∈ walkWords, word ∈ Sql.conditionWords := by decide
    have hknown : ∀ t ∈ d.tokens, Sql.KnownWord t := by
      refine tokens_visit hwords (fun t ht => ?_) h
      cases t with
      | word text => exact absurd rfl (ht text)
      | _ => trivial
    intro t ht
    cases t with
    | ident name => exact hnames name (List.mem_filterMap.mpr ⟨_, ht, rfl⟩)
    | word text => exact hknown _ ht
    | _ => trivial
  run := by
    obtain ⟨ts, htokens, hguarded, -⟩ := references_visit hx h
    have hrun : Watch.run .free d.tokens = some .free := by
      rw [htokens]
      exact hguarded.run_free
    rw [hrun]
    exact Option.some_ne_none _

end Query

/-! ## Plans -/

/-- The identifiers of a condition are the columns that its predicate refers to, and the null tests
are those that were written, exactly if no name holds the mark of a null operand and none is
exposed. A name without an opening parenthesis never is. -/
theorem identifiers_planFilter {d : Dialect} {e : Entity} {x : Expr} {bound : List Value} {t : Plan}
    (hx : x.isPredicate = true) (h : d.planFilter e x bound = .ok t) :
    ∃ draft, Query.draftFilter e x bound = .ok draft ∧
      x.references.mapM e.columnName = .ok (identNames draft.tokens) ∧
      (d.KeepsNames t.fragment draft.tokens ↔
        (∀ name ∈ identNames draft.tokens, Sql.IsUnmarked name.toList) ∧
          Sql.exposesName (Sql.writeTests .eq " IS NULL" draft.tokens) = false) ∧
      ((∀ name ∈ identNames draft.tokens, '(' ∉ name.toList) →
        Sql.exposesName (Sql.writeTests .eq " IS NULL" draft.tokens) = false) := by
  obtain ⟨draft, hvisit, rfl⟩ := planFilter_eq_ok.mp h
  obtain ⟨ts, htokens, -, hnames⟩ := Query.references_visit hx hvisit
  refine ⟨draft.setNested true, ?_, ?_, ?_, fun hparen => ?_⟩
  · rw [Query.draftFilter, hvisit]
    rfl
  · rw [hnames, Draft.setNested, htokens]
    rfl
  · constructor
    · intro hkeeps
      have hunmarked : ∀ name ∈ identNames draft.tokens, Sql.IsUnmarked name.toList := by
        intro name hname
        by_contra hmark
        exact Sql.not_keepsNames_of_marked hname hmark hkeeps
      exact ⟨hunmarked, (Query.watched_visit hx hvisit hunmarked).keepsNames_finish.mp hkeeps⟩
    · rintro ⟨hunmarked, hexposed⟩
      exact (Query.watched_visit hx hvisit hunmarked).keepsNames_finish.mpr hexposed
  · refine Sql.not_exposesName_of_noParen fun name hname => hparen name ?_
    rwa [Sql.identNames_writeTests] at hname

/-- Whether a column holds no value, as the negation of a test for one. -/
def absent (column : String) : Expr :=
  .unary .not (.binary .ne (.column column) (.constant .null))

/-- A column whose name ends like an opened negation: the name stays as it is. -/
theorem identifiers_planFilter_negation :
    (absent "NOT (b").isPredicate = true ∧
    ∃ t, Dialect.sqlServer.planFilter (.ofTable "t") (absent "NOT (b") [] = .ok t ∧
    ∃ draft, Query.draftFilter (.ofTable "t") (absent "NOT (b") [] = .ok draft ∧
      Dialect.sqlServer.KeepsNames t.fragment draft.tokens := by
  have hplan : Dialect.sqlServer.planFilter (.ofTable "t") (absent "NOT (b") [] =
      .ok ⟨"NOT ([NOT (b] IS NOT NULL)", [], .all, none, none, none, none⟩ := by rfl
  obtain ⟨draft, hdraft, -, hkeeps, -⟩ := identifiers_planFilter rfl hplan
  obtain rfl := Except.ok.inj hdraft
  exact ⟨rfl, _, hplan, _, rfl, hkeeps.mpr ⟨by decide, by rfl⟩⟩

/-- A parenthesis in a name is taken for one that opens a group: the name changes, and with it the
null test. A mark in a name is taken for a null operand. -/
theorem renamed_absent :
    Dialect.sqlServer.planFilter (.ofTable "t") (absent "a(b") [] =
      .ok ⟨"NOT ([aNOT (b] IS NULL)", [], .all, none, none, none, none⟩ ∧
    Dialect.sqlServer.identifiers "NOT ([aNOT (b] IS NULL)" = ["aNOT (b"] ∧
    (absent "a(b").references.mapM (Entity.ofTable "t").columnName = .ok ["a(b"] ∧
    Dialect.sqlServer.planFilter (.ofTable "t")
        (.binary .eq (.column "<NULL>") (.constant (.int 1))) [] =
      .ok ⟨"[NULL] = @p0", [.int 1], .all, none, none, none, none⟩ ∧
    Dialect.sqlServer.identifiers "[NULL] = @p0" = ["NULL"] := by
  exact ⟨by rfl, by rfl, by rfl, by rfl, by rfl⟩

end SqlCompose
