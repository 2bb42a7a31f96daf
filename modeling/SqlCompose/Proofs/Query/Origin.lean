import SqlCompose.Proofs.Query.Outline
import SqlCompose.Proofs.Query.Selection

/-!
# Where bound values come from

A bound value is the value of a leaf of the expression, an item of a leaf's list, or the truth
value that a column is tested for. `Query.places` says where the values of an expression come from,
in the order in which they are bound, and only looks at the outline of the expression. So
expressions with the same outline are compiled to the same text, and what is bound changes only
where a value was changed (`compileAlike_of_outline_eq`).
-/

namespace SqlCompose

/-! ## Places -/

/-- A place in an expression that a value is taken from. -/
inductive Place where
  /-- No place: a truth value that a column is tested for. -/
  | truth (b : Bool)
  /-- The value of a leaf. -/
  | here
  /-- An item of a leaf's list. -/
  | item (index : Nat)
  /-- A place in an operand or argument. -/
  | child (index : Nat) (place : Place)
deriving DecidableEq, Repr

namespace Expr

/-- The value that a leaf stands for. -/
def leafValue? : Expr → Option Value
  | .constant v => some v
  | .captured c => c.evaluate.toOption
  | _ => none

/-- The operands and arguments of an expression. -/
def children : Expr → List Expr
  | .binary _ left right => [left, right]
  | .unary _ operand => [operand]
  | .call _ args => args
  | .lambda _ body => [body]
  | .construct members => members
  | .source | .constant _ | .column _ | .captured _ | .param _ => []

/-- The value at a place. -/
def valueAt (x : Expr) : Place → Option Value
  | .truth b => some (.bool b)
  | .here => x.leafValue?
  | .item index =>
    match x.leafValue? with
    | some (.list items) => items[index]?
    | _ => none
  | .child index place => x.children[index]?.bind fun y => y.valueAt place

/-- The values at the places below a child are the child's own. -/
theorem map_child_valueAt {x y : Expr} {i : Nat} (h : x.children[i]? = some y)
    (places : List Place) :
    (places.map (.child i)).map x.valueAt = places.map y.valueAt := by
  simp [valueAt, h]

/-- The values at the places below the left operand are its own. -/
theorem map_left_valueAt (op : BinaryOp) (left right : Expr) (places : List Place) :
    (places.map (.child 0)).map (binary op left right).valueAt = places.map left.valueAt :=
  map_child_valueAt rfl places

/-- The values at the places below the right operand are its own. -/
theorem map_right_valueAt (op : BinaryOp) (left right : Expr) (places : List Place) :
    (places.map (.child 1)).map (binary op left right).valueAt = places.map right.valueAt :=
  map_child_valueAt rfl places

end Expr

namespace Query

variable (e : Entity)

/-- The place of a value that is bound as an operand, or as a predicate unless it is a truth
value. -/
def literalPlaces (predicate : Bool) (v : Value) : List Place :=
  match predicate, v with
  | true, .bool _ => []
  | _, v => if v.isScalar then [.here] else []

/-- The places of the items of a list that are bound. -/
def itemPlaces (items : List Value) : List Place :=
  (items.zipIdx.filter fun v => v.1.isScalar).map fun v => .item v.2

/-- The places that the values bound for an expression come from, in their order. -/
def places : Bool → Expr → List Place
  | predicate, .constant v => literalPlaces predicate v
  | predicate, .captured c => (c.evaluate.toOption.map (literalPlaces predicate)).getD []
  | predicate, .column name => if predicate && e.isBoolColumn name then [.truth true] else []
  | _, .binary op left right =>
    let left' := (places op.isLogical left).map (.child 0)
    let right' := (places op.isLogical right).map (.child 1)
    if (Expr.nullComesFirst op left right).toOption = some true then right' ++ left'
    else left' ++ right'
  | predicate, .unary .convert operand => (places predicate operand).map (.child 0)
  | _, .unary .not operand =>
    if (visit.negatedColumn? e operand).isSome then [.truth false]
    else (places true operand).map (.child 0)
  | predicate, .lambda _ body => (places predicate body).map (.child 0)
  | _, .call op (src :: args) =>
    if op = .contains then
      (itemPlaces (src.items.toOption.getD [])).map (.child 0)
    else
      (places false src).map (.child 0) ++
        match args with
        | arg :: _ => if takesPredicate op then (places true arg).map (.child 1) else []
        | [] => []
  | _, .call _ [] => []
  | _, .source | _, .param _ | _, .construct _ => []

variable {e}

/-! ## Places of an outline -/

/-- Whether a value is bound can be told from its outline. -/
theorem literalPlaces_outline (p : Bool) (v : Value) :
    literalPlaces p v.outline = literalPlaces p v := by
  cases p <;> cases v <;> rfl

/-- Which items are bound can be told from their outlines. -/
theorem itemPlaces_outline (items : List Value) :
    itemPlaces (items.map Value.outline) = itemPlaces items := by
  simp [itemPlaces, List.zipIdx_map, List.filter_map, Function.comp_def]

/-- Dropping an error and changing a result do not get in each other's way. -/
theorem toOption_map {ε α β : Type} (x : Except ε α) (f : α → β) :
    (x.map f).toOption = x.toOption.map f := by
  cases x <;> rfl

/-- Where values come from does not depend on the values. -/
theorem places_outline (p : Bool) (x : Expr) : places e p x.outline = places e p x := by
  fun_induction places e p x with
  | case1 p v => simp only [Expr.outline, places, literalPlaces_outline]
  | case2 p c =>
    simp only [Expr.outline, places, Captured.evaluate_outline, toOption_map, Option.map_map,
      Function.comp_def, literalPlaces_outline]
  | case3 p name h => simp only [Expr.outline, places, h, if_true]
  | case4 p name h => rw [Expr.outline, places, if_neg h]
  | case5 _ op left right left' right' h ihl ihr =>
    simp only [Expr.outline, places, Expr.nullComesFirst_outline, ihl, ihr, h, if_true]
    rfl
  | case6 _ op left right left' right' h ihl ihr =>
    simp only [Expr.outline, places, Expr.nullComesFirst_outline, ihl, ihr, h, if_false]
    rfl
  | case7 p x ih => simp only [Expr.outline, places, ih]
  | case8 _ x h => simp only [Expr.outline, places, negatedColumn_outline, h, if_true]
  | case9 _ x h ih => rw [Expr.outline, places, negatedColumn_outline, if_neg h, ih]
  | case10 p _ x ih => simp only [Expr.outline, places, ih]
  | case11 _ src args =>
    have hitems : itemPlaces (src.outline.items.toOption.getD []) =
        itemPlaces (src.items.toOption.getD []) := by
      rw [Expr.items_outline, toOption_map]
      cases src.items.toOption with
      | none => rfl
      | some items => exact itemPlaces_outline items
    cases args <;> simp only [Expr.outline, Expr.outlineArgs, places, if_true, hitems]
  | case12 _ op src args hne ih iharg =>
    cases args with
    | nil => simp only [Expr.outline, Expr.outlineArgs, places, hne, if_false, ih]
    | cons arg rest =>
      simp only [Expr.outline, Expr.outlineArgs, places, hne, if_false, ih]
      cases hop : takesPredicate op with
      | false => rfl
      | true =>
        have hcount : op.isCount arg = false :=
          Operator.isCount_eq_false (by rintro rfl; cases hop) (by rintro rfl; cases hop) arg
        simp only [hcount, Bool.false_eq_true, if_false, if_true, iharg]
  | case13 | case14 | case15 | case16 => rfl

/-! ## The values at the places -/

/-- A written value adds to the bound values what is at its place. -/
theorem values_literal {p : Bool} {d d' : Draft} {x : Expr} {v : Value} (hx : x.leafValue? = some v)
    (h : d.literal p v = .ok d') :
    d'.values.map some = d.values.map some ++ (literalPlaces p v).map x.valueAt := by
  cases p <;> cases v <;>
    simp [Draft.literal, Draft.value] at h <;> subst h <;>
      simp [Draft.put, Draft.bind, Draft.truth, literalPlaces, Value.isScalar, Expr.valueAt, hx]

/-- A bound value is added if it is a scalar. -/
theorem values_value {v : Value} {d d' : Draft} (h : d.value v = .ok d') :
    d'.values = d.values ++ [v].filter Value.isScalar := by
  rcases Draft.value_eq_ok.mp h with ⟨rfl, rfl⟩ | ⟨hv, rfl⟩
  · simp [Draft.put, Value.isScalar]
  · simp [Draft.bind, hv]

/-- A bound list adds its scalars in order. -/
theorem values_valueList {vs : List Value} {d d' : Draft} (h : d.valueList vs = .ok d') :
    d'.values = d.values ++ vs.filter Value.isScalar := by
  induction vs generalizing d with
  | nil => cases h; simp
  | cons v vs ih =>
    cases vs with
    | nil => exact values_value h
    | cons w vs =>
      obtain ⟨d₁, h₁, h⟩ := bind_eq_ok.mp h
      rw [ih h, Draft.put, values_value h₁, List.append_assoc, ← List.filter_append,
        List.singleton_append]

/-- The values at the places of a list are its scalars in order. -/
theorem map_itemPlaces {x : Expr} {items : List Value} (hx : x.leafValue? = some (.list items)) :
    (itemPlaces items).map x.valueAt = (items.filter Value.isScalar).map some := by
  have hindex : ∀ v ∈ items.zipIdx.filter fun v => v.1.isScalar,
      (x.valueAt ∘ fun v : Value × Nat => .item v.2) v = (some ∘ Prod.fst) v := by
    intro v hv
    have hmem := List.mem_zipIdx_iff_getElem?.mp (List.mem_filter.mp hv).1
    simp [Expr.valueAt, hx, hmem]
  have hfirst : (items.zipIdx.filter fun v => v.1.isScalar).map Prod.fst =
      items.filter Value.isScalar := by
    rw [← List.zipIdx_map_fst 0 items, List.filter_map]
    simp [Function.comp_def]
  rw [itemPlaces, List.map_map, List.map_congr_left hindex, ← List.map_map, hfirst]

/-- A collection with items is a leaf with a list. -/
theorem leafValue_of_items {x : Expr} {items : List Value} (h : x.items = .ok items)
    (hne : items ≠ []) : x.leafValue? = some (.list items) := by
  cases x with
  | constant v => cases v <;> simp_all [Expr.items, Expr.leafValue?, bind, Except.bind]
  | captured c =>
    obtain ⟨v, hv, h⟩ := bind_eq_ok.mp h
    cases v <;> simp_all [Expr.leafValue?, Except.toOption]
  | _ => cases h

/-- A membership test adds what is at the places of its collection. -/
theorem values_contains {collection item : Expr} {d d' : Draft}
    (h : contains e collection item d = .ok d') :
    d'.values.map some = d.values.map some ++
      (itemPlaces (collection.items.toOption.getD [])).map collection.valueAt := by
  obtain ⟨items, hitems, h⟩ := bind_eq_ok.mp h
  simp only [hitems, Except.toOption, Option.getD_some]
  split at h
  next hempty =>
    cases h
    obtain rfl := List.isEmpty_iff.mp hempty
    simp [Draft.truth, Draft.put, Draft.setNested, itemPlaces]
  next hempty =>
    obtain ⟨column, -, h⟩ := bind_eq_ok.mp h
    obtain ⟨d₁, hlist, h⟩ := bind_eq_ok.mp h
    cases h
    rw [map_itemPlaces (leafValue_of_items hitems (by simpa using hempty))]
    simp [Draft.put, values_valueList hlist, Draft.setNested]

/-- The values bound for operands in the order in which they are written. -/
theorem values_operands {op : BinaryOp} {wrap : Bool} {d d₁ d₂ : Draft}
    {vs ws : List (Option Value)}
    (first : d₁.values.map some = (d.begun wrap).values.map some ++ vs)
    (second : d₂.values.map some = (d₁.put (.op op)).values.map some ++ ws) :
    (d₂.ended wrap).values.map some = d.values.map some ++ (vs ++ ws) := by
  rw [Draft.values_begun] at first
  rw [Draft.values_ended, second, Draft.values_put, first, List.append_assoc]

/-- A walk adds to the bound values what is at the places of its expression, in order. -/
theorem Walked.values {p : Bool} {x : Expr} {d d' : Draft} (h : Walked e p x d d') :
    d'.values.map some = d.values.map some ++ (places e p x).map x.valueAt := by
  induction h with
  | source => simp [places]
  | constant h => exact values_literal rfl h
  | @captured p c v d d' hv h =>
    have hplaces : places e p (.captured c) = literalPlaces p v := by
      simp [places, hv, Except.toOption]
    rw [hplaces]
    exact values_literal (by simp [Expr.leafValue?, hv, Except.toOption]) h
  | column hb hcolumn => simp [places, hb, Draft.put]
  | test hb hcolumn => simp [places, hb, Draft.boolTest, Draft.bind, Draft.put, Expr.valueAt]
  | binary hswap _ _ ihl ihr =>
    rw [places, hswap, if_neg (by simp [Except.toOption]), List.map_append,
      Expr.map_left_valueAt, Expr.map_right_valueAt]
    exact values_operands ihl ihr
  | exchanged hswap _ _ ihr ihl =>
    rw [places, hswap, if_pos (by rfl), List.map_append, Expr.map_right_valueAt,
      Expr.map_left_valueAt]
    exact values_operands ihr ihl
  | convert _ ih | lambda _ ih => rw [ih, places, Expr.map_child_valueAt rfl]
  | negatedTest hb hcolumn =>
    simp [places, visit.negatedColumn?, hb, Draft.boolTest, Draft.bind, Draft.put, Expr.valueAt]
  | @not p x d d₁ hnone _ ih =>
    have hchild := Expr.map_child_valueAt (x := .unary .not x) (i := 0) rfl (places e true x)
    simpa [places, hnone, hchild] using ih
  | contains h => rw [values_contains h, places, if_pos rfl, Expr.map_child_valueAt rfl]
  | @filter p op src arg rest d d₁ d₂ hop _ _ ih iharg =>
    have hne : op ≠ .contains := by rintro rfl; cases hop
    have hsrc := Expr.map_child_valueAt (x := .call op (src :: arg :: rest)) (i := 0) rfl
      (places e false src)
    have harg := Expr.map_child_valueAt (x := .call op (src :: arg :: rest)) (i := 1) rfl
      (places e true arg)
    rw [Draft.values_beginFilter, ih] at iharg
    simp only [Draft.values_afterFilter, Draft.values_endFilter, iharg, places, hne, hop,
      if_false, if_true, List.map_append, hsrc, harg, List.append_assoc]
  | @unfiltered p op src d d₁ hop _ ih =>
    have hne : op ≠ .contains := by rintro rfl; cases hop
    rw [Draft.values_afterFilter, ih, places, if_neg hne, List.append_nil,
      Expr.map_child_valueAt rfl]
  | @step p op src args d d₁ d' hop hne _ h ih =>
    have hplaces : places e p (.call op (src :: args)) = (places e false src).map (.child 0) := by
      cases args <;> simp [places, hne, hop]
    rw [(applyStep_condition h).2.1, ih, hplaces, Expr.map_child_valueAt rfl]

/-- A walk binds the values at the places of the expression. -/
theorem values_visit {p : Bool} {x : Expr} {d d' : Draft} (h : visit e p x d = .ok d') :
    d'.values.map some = d.values.map some ++ (places e p x).map x.valueAt :=
  (visit_eq_ok.mp h).values

end Query

/-! ## Expressions with one outline -/

variable {d : Dialect} {e : Entity} {x y : Expr}

/-- Drafts of expressions with the same outline have the same outline, or there is none. -/
theorem draft_of_outline_eq (h : x.outline = y.outline) :
    (∃ fault, Query.draft e x = .error fault ∧ Query.draft e y = .error fault) ∨
    ∃ d d', Query.draft e x = .ok d ∧ Query.draft e y = .ok d' ∧ d.outline = d'.outline := by
  have hx := Query.visit_outline (e := e) false x Draft.empty
  have hy := Query.visit_outline (e := e) false y Draft.empty
  rw [← h, hx] at hy
  unfold Query.draft
  cases hdx : Query.visit e false x Draft.empty with
  | error fault =>
    cases hdy : Query.visit e false y Draft.empty <;> simp_all [Except.map]
  | ok d =>
    cases hdy : Query.visit e false y Draft.empty <;> simp_all [Except.map]

/-- The values bound for a query are those at its places. -/
theorem values_draft {draft : Draft} (h : Query.draft e x = .ok draft) :
    (draft.values.map d.param).map some =
      (Query.places e false x).map fun place => (x.valueAt place).map d.param := by
  have hvalues : draft.values.map some = (Query.places e false x).map x.valueAt := by
    simpa [Draft.empty, Draft.ofBound] using Query.values_visit h
  have hparam : (draft.values.map d.param).map some = (draft.values.map some).map (Option.map d.param) := by
    simp
  rw [hparam, hvalues, List.map_map]
  rfl

/-- A list whose items are the images of another one has the image of the other's item at every
position. -/
theorem getElem?_of_map_some {α β : Type} {xs : List α} {ys : List β} {f : β → Option α}
    (h : xs.map some = ys.map f) (i : Nat) : xs[i]? = ys[i]?.bind f := by
  have hi := congrArg (·[i]?) h
  simp only [List.getElem?_map] at hi
  cases hx : xs[i]? <;> cases hy : ys[i]? <;> simp_all

/-- Whether two queries are compiled to the same text for answers of the same kind, or neither is.
Their parameters come from the same places, so they agree wherever the value at the place is the
same. -/
def CompileAlike (d : Dialect) (e : Entity) (x y : Expr) : Prop :=
  (∃ fault, d.compile e x = .error fault ∧ d.compile e y = .error fault) ∨
  ∃ q r, d.compile e x = .ok q ∧ d.compile e y = .ok r ∧ q.sql = r.sql ∧ q.mode = r.mode ∧
    q.params.length = r.params.length ∧ ∃ places : List Place,
      q.params.map some = (places.map fun place => (x.valueAt place).map d.param) ∧
      r.params.map some = (places.map fun place => (y.valueAt place).map d.param) ∧
      ∀ (i : Nat) (place : Place), places[i]? = some place →
        x.valueAt place = y.valueAt place → q.params[i]? = r.params[i]?

/-- Queries that differ in scalars only, row counts excepted, are compiled alike. A selection does
not look at the values of its draft. -/
theorem compileAlike_of_outline_eq (h : x.outline = y.outline) : CompileAlike d e x y := by
  rcases draft_of_outline_eq (e := e) h with ⟨fault, hx, hy⟩ | ⟨draft, draft', hx, hy, hd⟩
  · exact .inl ⟨fault, by rw [compile_eq, hx]; rfl, by rw [compile_eq, hy]; rfl⟩
  have hselection : d.selection e draft = d.selection e draft' :=
    show d.selection e draft.outline = d.selection e draft'.outline from congrArg _ hd
  cases hs : d.selection e draft with
  | error fault =>
    rw [hs] at hselection
    exact .inl ⟨fault, by simp [compile_eq, hx, hs, bind, Except.bind],
      by simp [compile_eq, hy, ← hselection, bind, Except.bind]⟩
  | ok s =>
    rw [hs] at hselection
    have hmode : draft.mode = draft'.mode := by
      show draft.outline.mode = draft'.outline.mode
      rw [hd]
    have hq := values_draft (d := d) hx
    have hr := values_draft (d := d) hy
    rw [← Query.places_outline, ← h, Query.places_outline] at hr
    refine .inr ⟨_, _, compile_eq_ok.mpr ⟨_, hx, s, hs, rfl⟩,
      compile_eq_ok.mpr ⟨_, hy, s, hselection.symm, rfl⟩, rfl, hmode, ?_, _, hq, hr, ?_⟩
    · have hlength := congrArg List.length hq
      have hlength' := congrArg List.length hr
      simp only [List.length_map] at hlength hlength' ⊢
      rw [hlength, hlength']
    · intro i place hplace hsame
      simp only [getElem?_of_map_some hq, getElem?_of_map_some hr, hplace, Option.bind_some, hsame]

/-- The rows with a number in a column and another column among some values. -/
def sampleQuery (n : Int64) (v : Value) : Expr :=
  .call .take [.call .filter [.source,
    .binary .and (.binary .eq (.column "a") (.constant (.int n)))
      (.call .contains [.captured ⟨.record [("ids", .list [v, .null])], ["ids"]⟩, .column "b"])],
    .constant (.int 3)]

/-- Two queries with the same outline: one text, and parameters from the same places. -/
theorem compileAlike_sampleQuery :
    (sampleQuery 1 (.text "x")).outline = (sampleQuery 2 (.text "y")).outline ∧
      CompileAlike .postgres (.ofTable "t") (sampleQuery 1 (.text "x"))
        (sampleQuery 2 (.text "y")) :=
  ⟨rfl, compileAlike_of_outline_eq rfl⟩

end SqlCompose
