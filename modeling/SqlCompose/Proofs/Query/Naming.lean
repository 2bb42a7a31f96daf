import SqlCompose.Proofs.Query.Independence

/-!
# Names that a predicate is accepted with

A column is looked up when a walk comes to it, so a predicate that is accepted names declared columns
only, as far as the walk goes (`Query.declared_of_accepts`). It goes everywhere but into the item of
a membership test over an empty collection. What stands there is accepted whatever it is, and it is
refused or not when the collection has items. Where the items of these tests are columns, it makes no
difference what the collections hold (`Query.Sound.relisted`).
-/

namespace SqlCompose

/-! ## Names -/

namespace Expr

mutual

/-- The names of columns in an expression. -/
def columnNames : Expr → List String
  | .column name => [name]
  | .binary _ left right => left.columnNames ++ right.columnNames
  | .unary _ operand => operand.columnNames
  | .call _ args => columnNamesOf args
  | .lambda _ body => body.columnNames
  | .construct members => columnNamesOf members
  | .source | .constant _ | .captured _ | .param _ => []

/-- The names of columns in several expressions. -/
def columnNamesOf : List Expr → List String
  | [] => []
  | x :: xs => x.columnNames ++ columnNamesOf xs

end

/-- The expressions that the builder's functions make: columns, values, comparisons, connectives,
changes of type, negations and membership tests. -/
inductive IsBuilt : Expr → Prop
  | column (name : String) : IsBuilt (.col name)
  | constant (v : Value) : IsBuilt (.lit v)
  | captured (c : Captured) : IsBuilt (.captured c)
  | binary {left right : Expr} (op : BinaryOp) : IsBuilt left → IsBuilt right →
    IsBuilt (.binary op left right)
  | convert {x : Expr} : IsBuilt x → IsBuilt x.convert
  | negate {x : Expr} : IsBuilt x → IsBuilt x.negate
  | isIn {x collection : Expr} : IsBuilt x → IsBuilt collection → IsBuilt (x.isIn collection)

/-- The items of the membership tests over empty collections in a predicate. -/
def unreadItems : Expr → List Expr
  | .binary _ left right => left.unreadItems ++ right.unreadItems
  | .unary _ operand => operand.unreadItems
  | .lambda _ body => body.unreadItems
  | .call .contains [collection, item] =>
    match collection.items with
    | .ok [] => [item]
    | _ => []
  | _ => []

/-- Whether two predicates differ in nothing but what the collections of their membership tests
hold: scalars and nulls, in any number. -/
inductive Relisted : Expr → Expr → Prop
  | refl (x : Expr) : Relisted x x
  | binary {left left' right right' : Expr} (op : BinaryOp) : Relisted left left' →
    Relisted right right' → Relisted (.binary op left right) (.binary op left' right')
  | convert {x x' : Expr} : Relisted x x' → Relisted x.convert x'.convert
  | negate {x x' : Expr} : Relisted x x' → Relisted x.negate x'.negate
  | isIn {x collection collection' : Expr} {vs vs' : List Value}
    (h : collection.items = .ok vs) (hvs : ∀ v ∈ vs, v = .null ∨ v.isScalar = true)
    (h' : collection'.items = .ok vs') (hvs' : ∀ v ∈ vs', v = .null ∨ v.isScalar = true) :
    Relisted (x.isIn collection) (x.isIn collection')

/-- The other predicate differs from this one as little as this one from the other. -/
theorem Relisted.symm {x y : Expr} (h : Relisted x y) : Relisted y x := by
  induction h with
  | refl x => exact .refl x
  | binary op _ _ ihl ihr => exact .binary op ihl ihr
  | convert _ ih => exact .convert ih
  | negate _ ih => exact .negate ih
  | isIn h hvs h' hvs' => exact .isIn h' hvs' h hvs

/-- No list decides whether an operand is null. -/
theorem Relisted.isNull {x y : Expr} (h : Relisted x y) : y.isNull = x.isNull := by
  induction h with
  | refl | binary | negate | isIn => rfl
  | convert _ ih => exact ih

/-- Other items in a collection leave it a predicate or not. -/
theorem Relisted.isPredicate {x y : Expr} (h : Relisted x y) : y.isPredicate = x.isPredicate := by
  induction h with
  | refl | isIn => rfl
  | binary op _ _ ihl ihr => simp only [Expr.isPredicate, ihl, ihr]
  | convert _ ih | negate _ ih => exact ih

/-- What the builder's functions make is a predicate. -/
theorem IsBuilt.isPredicate {x : Expr} (h : x.IsBuilt) : x.isPredicate = true := by
  induction h with
  | binary op _ _ ihl ihr => exact Bool.and_eq_true_iff.mpr ⟨ihl, ihr⟩
  | convert _ ih | negate _ ih => exact ih
  | _ => rfl

/-- A selector has the name of its column in it, and no other one. -/
theorem columnNames_of_memberName {x : Expr} {name : String} (h : x.memberName? = some name) :
    x.columnNames = [name] := by
  fun_induction memberName? x with
  | case1 _ body ih => exact ih h
  | case2 operand ih => exact ih h
  | case3 column => cases h; rfl
  | case4 => cases h

/-- A collection whose items are known has no column in it. -/
theorem columnNames_of_items {x : Expr} {vs : List Value} (h : x.items = .ok vs) :
    x.columnNames = [] := by
  cases x with
  | constant | captured => rfl
  | _ => cases h

/-- The columns that a membership test names are those of its item. -/
theorem mem_columnNames_isIn {x collection : Expr} {vs : List Value} {name : String}
    (h : collection.items = .ok vs) (hname : name ∈ (x.isIn collection).columnNames) :
    name ∈ x.columnNames := by
  simpa [isIn, columnNames, columnNamesOf, columnNames_of_items h] using hname

/-- The item of a membership test is not read just when the collection is empty. -/
theorem unreadItems_isIn {x collection : Expr} {vs : List Value} (h : collection.items = .ok vs) :
    (x.isIn collection).unreadItems = if vs = [] then [x] else [] := by
  cases vs <;> simp [isIn, unreadItems, h]

/-- An item is a part of its predicate. -/
theorem columnNames_of_mem_unreadItems {x item : Expr} (h : item ∈ x.unreadItems) :
    item.columnNames ⊆ x.columnNames := by
  fun_induction unreadItems x with
  | case1 op left right ihl ihr =>
    rcases List.mem_append.mp h with h | h
    · exact List.subset_append_of_subset_left _ (ihl h)
    · exact List.subset_append_of_subset_right _ (ihr h)
  | case2 op operand ih => exact ih h
  | case3 name body ih => exact ih h
  | case4 collection x hitems =>
    obtain rfl := List.mem_singleton.mp h
    intro name hname
    simp [columnNames, columnNamesOf, hname]
  | case5 | case6 => cases h

end Expr

/-! ## Accepted expressions -/

namespace Query

variable {e : Entity} {p : Bool}

/-- Whether a walk over an expression ends with a draft, whatever draft it begins with. -/
def Accepts (e : Entity) (p : Bool) (x : Expr) : Prop := ∃ d, visit e p x Draft.empty = .ok d

/-- Whether a walk ends with a draft does not depend on the one it begins with. -/
theorem exists_visit_iff {x : Expr} (d : Draft) :
    (∃ d', visit e p x d = .ok d') ↔ Accepts e p x := by
  constructor
  · rintro ⟨d', h⟩
    exact (endsAlike_visit p x d Draft.empty).eq_ok h
  · rintro ⟨d', h⟩
    exact (endsAlike_visit p x Draft.empty d).eq_ok h

/-- A column is accepted when it is found. -/
theorem accepts_column {name : String} :
    Accepts e p (.col name) ↔ ∃ column, e.columnName name = .ok column := by
  unfold Accepts Expr.col
  rw [visit_column]
  cases e.columnName name <;> simp [bind, Except.bind]

/-- A comparison is accepted when both of its operands are and it is known on which side a null
stands. -/
theorem accepts_binary {op : BinaryOp} {left right : Expr} :
    Accepts e p (.binary op left right) ↔
      (∃ swap, Expr.nullComesFirst op left right = .ok swap) ∧ Accepts e op.isLogical left ∧
        Accepts e op.isLogical right := by
  unfold Accepts
  rw [visit_binary]
  constructor
  · rintro ⟨d, h⟩
    obtain ⟨swap, hswap, h⟩ := bind_eq_ok.mp h
    obtain ⟨d₁, hfirst, h⟩ := bind_eq_ok.mp h
    obtain ⟨d₂, hsecond, -⟩ := bind_eq_ok.mp h
    have hfirst := (exists_visit_iff _).mp ⟨_, hfirst⟩
    have hsecond := (exists_visit_iff _).mp ⟨_, hsecond⟩
    cases swap with
    | true => exact ⟨⟨_, hswap⟩, hsecond, hfirst⟩
    | false => exact ⟨⟨_, hswap⟩, hfirst, hsecond⟩
  · rintro ⟨⟨swap, hswap⟩, hleft, hright⟩
    have operand (x : Expr) (hx : x = left ∨ x = right) (d : Draft) :
        ∃ d', visit e op.isLogical x d = .ok d' := by
      rcases hx with rfl | rfl
      · exact (exists_visit_iff d).mpr hleft
      · exact (exists_visit_iff d).mpr hright
    obtain ⟨d₁, hfirst⟩ := operand (if swap then right else left) (by cases swap <;> simp)
      (Draft.empty.begun (op.isLogical && Draft.empty.nested))
    obtain ⟨d₂, hsecond⟩ := operand (if swap then left else right) (by cases swap <;> simp)
      (d₁.put (.op op))
    exact ⟨_, bind_eq_ok.mpr ⟨swap, hswap, bind_eq_ok.mpr ⟨d₁, hfirst,
      bind_eq_ok.mpr ⟨d₂, hsecond, rfl⟩⟩⟩⟩

/-- A change of type is accepted when its operand is. -/
theorem accepts_convert {x : Expr} : Accepts e p x.convert ↔ Accepts e p x := by
  unfold Accepts Expr.convert
  rw [visit]

/-- An expression is accepted as the body of a function just when it is without. -/
theorem accepts_toLambda {x : Expr} : Accepts e p x.toLambda ↔ Accepts e p x := by
  unfold Accepts Expr.toLambda
  rw [visit]

/-- A negation is accepted if its operand is, also where the negation is read from a column. -/
theorem accepts_negate {x : Expr} : Accepts e p x.negate ↔ Accepts e true x := by
  have hnot : Accepts e p x.negate ↔ ∃ d, visit e p (.unary .not x) Draft.empty = .ok d := Iff.rfl
  rw [hnot, visit_not]
  split
  next name hname =>
    cases x with
    | column column =>
      obtain ⟨-, rfl⟩ := (Option.ite_none_right_eq_some.mp hname).imp_right Option.some.inj
      rw [← Expr.col, accepts_column]
      cases e.columnName column <;> simp [bind, Except.bind]
    | _ => cases hname
  next =>
    rw [← exists_visit_iff ((Draft.empty.put (.word "NOT (")).setNested false)]
    cases visit e true x ((Draft.empty.put (.word "NOT (")).setNested false) <;>
      simp [bind, Except.bind]

/-- A list of scalars and nulls can be bound. -/
theorem exists_valueList {vs : List Value} (h : ∀ v ∈ vs, v = .null ∨ v.isScalar = true)
    (d : Draft) : ∃ d', d.valueList vs = .ok d' := by
  have one {v : Value} (hv : v = .null ∨ v.isScalar = true) (d : Draft) :
      ∃ d', d.value v = .ok d' := by
    rcases hv with rfl | hv
    · exact ⟨_, rfl⟩
    · exact ⟨_, Draft.value_eq_ok.mpr (.inr ⟨hv, rfl⟩)⟩
  induction vs generalizing d with
  | nil => exact ⟨d, rfl⟩
  | cons v vs ih =>
    obtain ⟨hv, hvs⟩ := List.forall_mem_cons.mp h
    cases vs with
    | nil => exact one hv d
    | cons w vs =>
      obtain ⟨d₁, hd₁⟩ := one hv d
      obtain ⟨d₂, hd₂⟩ := ih hvs (d₁.put (.word ", "))
      exact ⟨d₂, bind_eq_ok.mpr ⟨d₁, hd₁, hd₂⟩⟩

/-- A membership test over an empty collection is accepted with any item; over another one, its item
has to be a column. -/
theorem member_of_accepts_isIn {x collection : Expr} (h : Accepts e p (x.isIn collection)) :
    ∃ vs, collection.items = .ok vs ∧ (vs ≠ [] → ∃ column, e.member x = .ok column) := by
  obtain ⟨d, h⟩ := h
  rw [Expr.isIn, visit_contains] at h
  obtain ⟨vs, hitems, h⟩ := bind_eq_ok.mp h
  refine ⟨vs, hitems, fun hne => ?_⟩
  rw [if_neg (by simpa using hne)] at h
  obtain ⟨column, hmember, -⟩ := bind_eq_ok.mp h
  exact ⟨column, hmember⟩

/-- A membership test is accepted when its items can be bound and, if there are any, its item is a
column. -/
theorem accepts_isIn {x collection : Expr} {vs : List Value} (h : collection.items = .ok vs)
    (hvs : ∀ v ∈ vs, v = .null ∨ v.isScalar = true)
    (hmember : vs ≠ [] → ∃ column, e.member x = .ok column) : Accepts e p (x.isIn collection) := by
  unfold Accepts Expr.isIn
  rw [visit_contains]
  by_cases hempty : vs = []
  · subst hempty
    exact ⟨_, bind_eq_ok.mpr ⟨[], h, rfl⟩⟩
  · obtain ⟨column, hcolumn⟩ := hmember hempty
    obtain ⟨d, hlist⟩ := exists_valueList hvs
      (((Draft.empty.setNested true).put (.ident column)).put (.word " IN ("))
    refine ⟨d.put (.word ")"), bind_eq_ok.mpr ⟨vs, h, ?_⟩⟩
    rw [if_neg (by simpa using hempty)]
    exact bind_eq_ok.mpr ⟨column, hcolumn, bind_eq_ok.mpr ⟨d, hlist, rfl⟩⟩

/-! ## Declared columns -/

/-- A name that resolves to a column of a declared entity is declared. -/
theorem isSome_find?_of_columnName {name column : String} (hcolumns : e.columns ≠ [])
    (h : e.columnName name = .ok column) : (e.find? name).isSome = true := by
  obtain ⟨c, -, hfind, -⟩ := declared_of_columnName hcolumns h
  rw [hfind]
  rfl

/-- The names in a selector that resolves on a declared entity are declared. -/
theorem isSome_find?_of_member {x : Expr} {column name : String} (hcolumns : e.columns ≠ [])
    (h : e.member x = .ok column) (hname : name ∈ x.columnNames) :
    (e.find? name).isSome = true := by
  obtain ⟨member, hmember, hcolumn⟩ := memberName_of_member h
  rw [Expr.columnNames_of_memberName hmember, List.mem_singleton] at hname
  rw [hname]
  exact isSome_find?_of_columnName hcolumns hcolumn

/-- A name in a predicate that is accepted is that of a declared column, or it stands in an item that
was not read. -/
theorem declared_of_accepts {x : Expr} (hcolumns : e.columns ≠ []) (hx : x.IsBuilt)
    (h : Accepts e p x) {name : String} (hname : name ∈ x.columnNames) :
    (e.find? name).isSome = true ∨ ∃ item ∈ x.unreadItems, name ∈ item.columnNames := by
  induction hx generalizing p with
  | column column =>
    obtain rfl := List.mem_singleton.mp hname
    obtain ⟨_, hcolumn⟩ := accepts_column.mp h
    exact .inl (isSome_find?_of_columnName hcolumns hcolumn)
  | constant | captured => cases hname
  | binary op _ _ ihl ihr =>
    obtain ⟨-, hleft, hright⟩ := accepts_binary.mp h
    rcases List.mem_append.mp hname with hname | hname
    · refine (ihl hleft hname).imp_right ?_
      rintro ⟨item, hitem, hname⟩
      exact ⟨item, List.mem_append_left _ hitem, hname⟩
    · refine (ihr hright hname).imp_right ?_
      rintro ⟨item, hitem, hname⟩
      exact ⟨item, List.mem_append_right _ hitem, hname⟩
  | convert _ ih => exact ih (accepts_convert.mp h) hname
  | negate _ ih => exact ih (accepts_negate.mp h) hname
  | @isIn item collection _ _ _ _ =>
    obtain ⟨vs, hitems, hmember⟩ := member_of_accepts_isIn h
    have hname := Expr.mem_columnNames_isIn hitems hname
    by_cases hempty : vs = []
    · refine .inr ⟨item, ?_, hname⟩
      rw [Expr.unreadItems_isIn hitems, if_pos hempty]
      exact List.mem_singleton_self item
    · obtain ⟨column, hmember⟩ := hmember hempty
      exact .inl (isSome_find?_of_member hcolumns hmember hname)

/-! ## Collections with other items -/

/-- Whether a predicate is accepted and the items that were not read are columns. -/
structure Sound (e : Entity) (p : Bool) (x : Expr) : Prop where
  accepts : Accepts e p x
  items : ∀ item ∈ x.unreadItems, ∃ column, e.member item = .ok column

/-- A predicate with other items in its collections is as sound. -/
theorem Sound.relisted {x y : Expr} (hxy : x.Relisted y) (h : Sound e p x) : Sound e p y := by
  induction hxy generalizing p with
  | refl x => exact h
  | @binary left left' right right' op hl hr ihl ihr =>
    obtain ⟨hswap, hleft, hright⟩ := accepts_binary.mp h.accepts
    have hleft := ihl ⟨hleft, fun item hitem => h.items item (List.mem_append_left _ hitem)⟩
    have hright := ihr ⟨hright, fun item hitem => h.items item (List.mem_append_right _ hitem)⟩
    refine ⟨accepts_binary.mpr ⟨?_, hleft.accepts, hright.accepts⟩, fun item hitem => ?_⟩
    · rwa [Expr.nullComesFirst, hl.isNull, hr.isNull]
    · rcases List.mem_append.mp hitem with hitem | hitem
      · exact hleft.items item hitem
      · exact hright.items item hitem
  | convert _ ih =>
    have hoperand := ih ⟨accepts_convert.mp h.accepts, h.items⟩
    exact ⟨accepts_convert.mpr hoperand.accepts, hoperand.items⟩
  | negate _ ih =>
    have hoperand := ih ⟨accepts_negate.mp h.accepts, h.items⟩
    exact ⟨accepts_negate.mpr hoperand.accepts, hoperand.items⟩
  | @isIn x collection collection' vs vs' hvs hscalars hvs' hscalars' =>
    have hmember : ∃ column, e.member x = .ok column := by
      obtain ⟨_, hitems, hmember⟩ := member_of_accepts_isIn h.accepts
      obtain rfl := Except.ok.inj (hvs.symm.trans hitems)
      by_cases hempty : vs = []
      · exact h.items x (by simp [Expr.unreadItems_isIn hvs, hempty])
      · exact hmember hempty
    refine ⟨accepts_isIn hvs' hscalars' fun _ => hmember, fun item hitem => ?_⟩
    rw [Expr.unreadItems_isIn hvs'] at hitem
    split at hitem
    · rwa [List.mem_singleton.mp hitem]
    · cases hitem

end Query

end SqlCompose
