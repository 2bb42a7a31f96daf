import SqlCompose.Proofs.Query.Walk

/-!
# How a walk can fail

An expression is refused for its shape, or because it names a column that the entity does not
have. A walk fails with no other error (`Query.onlyRefuses_visit`), so whatever it is part of
knows that no connection was needed to find the fault.
-/

namespace SqlCompose

/-- Whether an error says that an expression is refused. -/
def QueryError.isRefusal : QueryError → Bool
  | .unsupportedShape _ | .unknownColumn _ _ => true
  | _ => false

/-- A refusal is found while a query is compiled. -/
theorem QueryError.isCompileError_of_isRefusal {fault : QueryError} (h : fault.isRefusal = true) :
    fault.isCompileError = true := by
  cases fault <;> first | rfl | cases h

/-- Whether a computation fails, if it does, by refusing an expression. -/
def OnlyRefuses {α : Type} (x : Except QueryError α) : Prop :=
  ∀ fault, x = .error fault → fault.isRefusal = true

namespace OnlyRefuses

variable {α β : Type}

/-- A computation with a result refuses nothing. -/
theorem ok (a : α) : OnlyRefuses (.ok a : Except QueryError α) := nofun

/-- An unsupported shape is a refusal. -/
theorem shape (fault : ShapeFault) :
    OnlyRefuses (.error (.unsupportedShape fault) : Except QueryError α) := by
  rintro _ ⟨rfl⟩
  rfl

/-- A column that is not declared is a refusal. -/
theorem unknownColumn (table column : String) :
    OnlyRefuses (.error (.unknownColumn table column) : Except QueryError α) := by
  rintro _ ⟨rfl⟩
  rfl

/-- Two computations that only refuse do so one after the other. -/
theorem bind {x : Except QueryError α} {f : α → Except QueryError β} (hx : OnlyRefuses x)
    (hf : ∀ a, OnlyRefuses (f a)) : OnlyRefuses (x >>= f) := by
  cases x with
  | error fault => exact fun _ h => hx _ (by cases h; rfl)
  | ok a => exact hf a

/-- A computation that only refuses does so on a list. -/
theorem mapM {f : α → Except QueryError β} (hf : ∀ a, OnlyRefuses (f a)) (xs : List α) :
    OnlyRefuses (xs.mapM f) := by
  induction xs with
  | nil => exact .ok _
  | cons x xs ih =>
    rw [List.mapM_cons]
    exact (hf x).bind fun b => ih.bind fun bs => .ok _

end OnlyRefuses

namespace Query

variable {e : Entity}

/-! ## Columns and operands -/

/-- Looking up a column fails by refusing its name alone. -/
theorem onlyRefuses_columnName (name : String) : OnlyRefuses (e.columnName name) := by
  unfold Entity.columnName
  split
  · exact .ok _
  · split
    · exact .ok _
    · exact .unknownColumn _ _

/-- Resolving a selector fails by refusing it alone. -/
theorem onlyRefuses_member (x : Expr) : OnlyRefuses (e.member x) := by
  fun_induction e.member x with
  | case1 _ body ih => exact ih
  | case2 operand ih => exact ih
  | case3 name => exact onlyRefuses_columnName name
  | case4 => exact .shape _

/-- Resolving a projection fails by refusing it alone. -/
theorem onlyRefuses_projection (x : Expr) : OnlyRefuses (e.projection x) := by
  unfold Entity.projection
  split
  split
  · split
    · exact .ok _
    · exact .shape _
  · exact .ok _
  · exact (OnlyRefuses.mapM onlyRefuses_member _).bind fun columns => .ok _
  · exact (onlyRefuses_member _).bind fun column => .ok _
  · exact (onlyRefuses_member _).bind fun column => .ok _
  · exact .shape _

/-- Following a path into a captured value fails by refusing the path alone. -/
theorem onlyRefuses_follow (v : Value) (path : List String) :
    OnlyRefuses (Captured.follow v path) := by
  fun_induction Captured.follow v path with
  | case1 v => exact .ok v
  | case2 => exact .ok _
  | case3 _ _ _ _ _ ih => exact ih
  | case4 => exact .shape _
  | case5 => exact .shape _

/-- Asking whether an operand is null fails by refusing it alone. -/
theorem onlyRefuses_isNull (x : Expr) : OnlyRefuses x.isNull := by
  intro fault h
  obtain ⟨c, hc⟩ := isNull_eq_error h
  exact onlyRefuses_follow c.root c.path fault hc

/-- Asking on which side a null stands fails by refusing an operand alone. -/
theorem onlyRefuses_nullComesFirst (op : BinaryOp) (left right : Expr) :
    OnlyRefuses (Expr.nullComesFirst op left right) := by
  unfold Expr.nullComesFirst
  split
  · refine (onlyRefuses_isNull left).bind fun b => ?_
    split
    · exact (onlyRefuses_isNull right).bind fun c => .ok _
    · exact .ok _
  · exact .ok _

/-- Reading a collection fails by refusing it alone. -/
theorem onlyRefuses_items (x : Expr) : OnlyRefuses x.items := by
  have hitems (v : Value) : OnlyRefuses (Expr.constant v).items := by
    cases v <;> first | exact .ok _ | exact .shape _
  cases x with
  | constant v => exact hitems v
  | captured c => exact (onlyRefuses_follow c.root c.path).bind hitems
  | _ => exact .shape _

/-- Binding a value fails by refusing it alone. -/
theorem onlyRefuses_value (d : Draft) (v : Value) : OnlyRefuses (d.value v) := by
  cases v <;> first | exact .ok _ | exact .shape _

/-- Binding a list fails by refusing one of its items alone. -/
theorem onlyRefuses_valueList (d : Draft) (vs : List Value) : OnlyRefuses (d.valueList vs) := by
  fun_induction Draft.valueList d vs with
  | case1 d => exact .ok d
  | case2 d v => exact onlyRefuses_value d v
  | case3 d v vs hne ih => exact (onlyRefuses_value d v).bind fun d₁ => ih d₁

/-- Writing a value fails by refusing it alone. -/
theorem onlyRefuses_literal (d : Draft) (p : Bool) (v : Value) : OnlyRefuses (d.literal p v) := by
  unfold Draft.literal
  split
  · exact .ok _
  · exact onlyRefuses_value _ _

/-! ## Steps -/

/-- Writing a membership test fails by refusing a part of it alone. -/
theorem onlyRefuses_contains (collection item : Expr) (d : Draft) :
    OnlyRefuses (contains e collection item d) := by
  refine (onlyRefuses_items collection).bind fun items => ?_
  split
  · exact .ok _
  · exact (onlyRefuses_member item).bind fun column =>
      (onlyRefuses_valueList _ _).bind fun d₁ => .ok _

/-- A step fails by refusing its argument alone. -/
theorem onlyRefuses_applyStep (op : Operator) (arg : Option Expr) (d : Draft) :
    OnlyRefuses (applyStep e op arg d) := by
  unfold applyStep
  split
  · split
    · exact .ok _
    · exact .shape _
  · split
    · exact .ok _
    · exact .shape _
  · split
    · exact (onlyRefuses_member _).bind fun column => .ok _
    · exact .shape _
  · split
    · exact (onlyRefuses_member _).bind fun column => .ok _
    · exact .shape _
  · split
    · exact (onlyRefuses_projection _).bind fun selected => .ok _
    · exact .shape _
  · exact .ok _

/-- A walk fails only by refusing the expression. -/
theorem onlyRefuses_visit (p : Bool) (x : Expr) (d : Draft) : OnlyRefuses (visit e p x d) := by
  induction p, x using visit_induction e generalizing d with
  | source p => rw [visit]; exact .ok d
  | constant p v => rw [visit_constant]; exact onlyRefuses_literal _ _ _
  | captured p c =>
    rw [visit_captured]
    exact (onlyRefuses_follow _ _).bind fun v => onlyRefuses_literal _ _ _
  | column p name =>
    rw [visit_column]
    exact (onlyRefuses_columnName name).bind fun column => .ok _
  | binary p op left right ihl ihr =>
    rw [visit_binary]
    refine (onlyRefuses_nullComesFirst op left right).bind fun swap => ?_
    cases swap with
    | true => exact (ihr _).bind fun d₁ => (ihl _).bind fun d₂ => .ok _
    | false => exact (ihl _).bind fun d₁ => (ihr _).bind fun d₂ => .ok _
  | convert p x ih | lambda p param x ih => rw [visit]; exact ih d
  | not p x ih =>
    rw [visit_not]
    split
    · exact (onlyRefuses_columnName _).bind fun column => .ok _
    · exact (ih _).bind fun d₁ => .ok _
  | contains p collection item => rw [visit_contains]; exact onlyRefuses_contains _ _ _
  | filter p op src arg rest hop ih iharg =>
    rw [visit_filter _ hop]
    exact (ih d).bind fun d₁ => (iharg _).bind fun d₂ => .ok _
  | unfiltered p op src hop ih =>
    rw [visit_unfiltered _ hop]
    exact (ih d).bind fun d₁ => .ok _
  | step p op src args hop hne ih =>
    rw [visit_step _ hop hne]
    exact (ih d).bind fun d₁ => onlyRefuses_applyStep _ _ _
  | refused p x fault hfault => rw [hfault]; exact .shape _

/-- The plan of a predicate fails only by refusing it. -/
theorem onlyRefuses_planFilter (d : Dialect) (predicate : Expr) (bound : List Value) :
    OnlyRefuses (d.planFilter e predicate bound) := by
  have hdraft : OnlyRefuses (draftFilter e predicate bound) :=
    (onlyRefuses_visit _ _ _).bind fun draft => .ok _
  unfold Dialect.planFilter
  cases h : draftFilter e predicate bound with
  | error fault => rintro _ ⟨rfl⟩; exact hdraft fault h
  | ok draft => exact .ok _

end Query

end SqlCompose
