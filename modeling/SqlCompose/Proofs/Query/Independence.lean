import SqlCompose.Proofs.Query.Walk

/-!
# What a walk does not depend on

How a walk ends does not depend on the draft it goes on with: it ends with a draft, or it fails
with the same error (`Query.endsAlike_visit`). A change of the draft that no single step of a walk
takes notice of is not noticed by the walk either (`Query.visit_commutes`). So a walk over a
predicate neither reads nor changes what the draft says about rows and columns, unless the predicate
has the table or a step in it (`Query.visit_over`).
-/

namespace SqlCompose

/-! ## Ending alike -/

/-- Whether two computations both have results, or fail with the same error. -/
def EndsAlike {α β : Type} (x : Except QueryError α) (y : Except QueryError β) : Prop :=
  x.map (fun _ => ()) = y.map fun _ => ()

namespace EndsAlike

variable {α β γ δ : Type} {x : Except QueryError α} {y : Except QueryError β}

/-- Two results end alike. -/
theorem ok (a : α) (b : β) : EndsAlike (.ok a) (.ok b) := rfl

/-- One error ends as it does itself. -/
theorem error (fault : QueryError) :
    EndsAlike (.error fault : Except QueryError α) (.error fault : Except QueryError β) := rfl

/-- Ending alike does not depend on which is named first. -/
theorem symm (h : EndsAlike x y) : EndsAlike y x := Eq.symm h

/-- What is done with the result of the first is done with that of the second. -/
theorem bind {f : α → Except QueryError γ} {g : β → Except QueryError δ} (h : EndsAlike x y)
    (hf : ∀ a b, EndsAlike (f a) (g b)) : EndsAlike (x >>= f) (y >>= g) := by
  cases x with
  | error fault =>
    cases y with
    | error fault' => exact h
    | ok b => cases h
  | ok a =>
    cases y with
    | error fault' => cases h
    | ok b => exact hf a b

/-- What is done with one result in two ways. -/
theorem bind_same {f : α → Except QueryError γ} {g : α → Except QueryError δ}
    (hf : ∀ a, EndsAlike (f a) (g a)) : EndsAlike (x >>= f) (x >>= g) := by
  cases x with
  | error fault => exact .error fault
  | ok a => exact hf a

/-- An error of one computation is the error of the other. -/
theorem eq_error (h : EndsAlike x y) {fault : QueryError} (hx : x = .error fault) :
    y = .error fault := by
  subst hx
  cases y with
  | error fault' => cases h; rfl
  | ok b => cases h

/-- A result of one computation comes with a result of the other. -/
theorem eq_ok (h : EndsAlike x y) {a : α} (hx : x = .ok a) : ∃ b, y = .ok b := by
  subst hx
  cases y with
  | error fault' => cases h
  | ok b => exact ⟨b, rfl⟩

end EndsAlike

namespace Query

variable {e : Entity}

/-- Whether a value can be bound does not depend on the draft. -/
theorem endsAlike_value (v : Value) (d d' : Draft) : EndsAlike (d.value v) (d'.value v) := by
  cases v <;> first | exact .ok _ _ | exact .error _

/-- Whether a value can be written does not depend on the draft. -/
theorem endsAlike_literal (p : Bool) (v : Value) (d d' : Draft) :
    EndsAlike (d.literal p v) (d'.literal p v) := by
  unfold Draft.literal
  split
  · exact .ok _ _
  · exact endsAlike_value _ _ _

/-- Whether a list can be bound does not depend on the draft. -/
theorem endsAlike_valueList (vs : List Value) (d d' : Draft) :
    EndsAlike (d.valueList vs) (d'.valueList vs) := by
  induction vs generalizing d d' with
  | nil => exact .ok _ _
  | cons v vs ih =>
    cases vs with
    | nil => exact endsAlike_value v d d'
    | cons w vs => exact (endsAlike_value v d d').bind fun _ _ => ih _ _

/-- Whether a membership test can be written does not depend on the draft. -/
theorem endsAlike_contains (collection item : Expr) (d d' : Draft) :
    EndsAlike (contains e collection item d) (contains e collection item d') := by
  refine EndsAlike.bind_same ?_
  intro items
  split
  · exact .ok _ _
  · refine EndsAlike.bind_same fun column => ?_
    exact (endsAlike_valueList items _ _).bind fun _ _ => .ok _ _

/-- Whether a step can be taken does not depend on the draft. -/
theorem endsAlike_applyStep (op : Operator) (arg : Option Expr) (d d' : Draft) :
    EndsAlike (applyStep e op arg d) (applyStep e op arg d') := by
  cases op with
  | take | skip =>
    unfold applyStep
    cases arg.bind Expr.rowCount? with
    | none => exact .error _
    | some n => exact .ok _ _
  | orderBy | orderByDescending =>
    cases arg with
    | none => exact .error _
    | some selector => exact EndsAlike.bind_same fun column => .ok _ _
  | select =>
    cases arg with
    | none => exact .error _
    | some selector => exact EndsAlike.bind_same fun selected => .ok _ _
  | _ => exact .ok _ _

/-- How a walk ends does not depend on the draft. -/
theorem endsAlike_visit (p : Bool) (x : Expr) (d d' : Draft) :
    EndsAlike (visit e p x d) (visit e p x d') := by
  induction p, x using visit_induction e generalizing d d' with
  | source p => rw [visit, visit]; exact .ok _ _
  | constant p v =>
    rw [visit_constant, visit_constant]
    exact endsAlike_literal _ _ _ _
  | captured p c =>
    rw [visit_captured, visit_captured]
    exact EndsAlike.bind_same fun v => endsAlike_literal _ _ _ _
  | column p name =>
    rw [visit_column, visit_column]
    exact EndsAlike.bind_same fun column => .ok _ _
  | binary p op left right ihl ihr =>
    rw [visit_binary, visit_binary]
    refine EndsAlike.bind_same fun swap => ?_
    cases swap with
    | true => exact (ihr _ _).bind fun d₁ d₂ => (ihl _ _).bind fun _ _ => .ok _ _
    | false => exact (ihl _ _).bind fun d₁ d₂ => (ihr _ _).bind fun _ _ => .ok _ _
  | convert p x ih | lambda p param x ih => rw [visit, visit]; exact ih d d'
  | not p x ih =>
    rw [visit_not, visit_not]
    split
    · exact EndsAlike.bind_same fun column => .ok _ _
    · exact (ih _ _).bind fun _ _ => .ok _ _
  | contains p collection item =>
    rw [visit_contains, visit_contains]
    exact endsAlike_contains _ _ _ _
  | filter p op src arg rest hop ih iharg =>
    rw [visit_filter _ hop, visit_filter _ hop]
    exact (ih d d').bind fun d₁ d₂ => (iharg _ _).bind fun _ _ => .ok _ _
  | unfiltered p op src hop ih =>
    rw [visit_unfiltered _ hop, visit_unfiltered _ hop]
    exact (ih d d').bind fun _ _ => .ok _ _
  | step p op src args hop hne ih =>
    rw [visit_step _ hop hne, visit_step _ hop hne]
    exact (ih d d').bind fun _ _ => endsAlike_applyStep _ _ _ _
  | refused p x fault hfault => rw [hfault, hfault]; exact .error _

end Query

/-! ## Walks seen through a map of drafts -/

namespace Draft

/-- Whether a map of drafts is passed over by what is written for a predicate: a token other than a
parameter, and a value with its parameter. -/
structure Commutes (f : Draft → Draft) : Prop where
  nested : ∀ d, (f d).nested = d.nested
  setNested : ∀ d b, f (d.setNested b) = (f d).setNested b
  put : ∀ d t, t.index? = none → f (d.put t) = (f d).put t
  bind : ∀ d v, f (d.bind v) = (f d).bind v

/-- Whether a map of drafts is passed over by the steps of a query too. -/
structure CommutesWithSteps (e : Entity) (f : Draft → Draft) : Prop where
  isEmpty : ∀ d, (f d).tokens.isEmpty = d.tokens.isEmpty
  openGroup : ∀ d, f d.openGroup = (f d).openGroup
  afterFilter : ∀ op d, f (Query.afterFilter op d) = Query.afterFilter op (f d)
  applyStep : ∀ op arg d, Query.applyStep e op arg (f d) = (Query.applyStep e op arg d).map f

namespace Commutes

variable {f : Draft → Draft} (hf : Commutes f)

include hf

/-- Such a map passes over an operator. -/
theorem op (d : Draft) (op : BinaryOp) : f (d.put (.op op)) = (f d).put (.op op) := hf.put d _ rfl

/-- Such a map passes over a word. -/
theorem word (d : Draft) (text : String) : f (d.put (.word text)) = (f d).put (.word text) :=
  hf.put d _ rfl

/-- Such a map passes over the beginning of a comparison. -/
theorem begun (d : Draft) (wrap : Bool) : f (d.begun wrap) = (f d).begun wrap := by
  cases wrap with
  | false => exact hf.setNested d true
  | true => exact (hf.word _ _).trans (congrArg (Draft.put · _) (hf.setNested d true))

/-- Such a map passes over the end of a comparison. -/
theorem ended (d : Draft) (wrap : Bool) : f (d.ended wrap) = (f d).ended wrap := by
  cases wrap with
  | false => rfl
  | true => exact hf.word d _

/-- Such a map passes over the end of a condition. -/
theorem endFilter (d : Draft) (first : Bool) : f (d.endFilter first) = (f d).endFilter first := by
  cases first with
  | true => exact hf.setNested d true
  | false => exact (hf.word _ _).trans (congrArg (Draft.put · _) (hf.setNested d true))

/-- Such a map passes over a truth value. -/
theorem truth (d : Draft) (b : Bool) : f (d.truth b) = (f d).truth b :=
  (hf.setNested _ true).trans (congrArg (Draft.setNested · true) (hf.put d _ rfl))

/-- Such a map passes over the test of a column of truth values. -/
theorem boolTest (d : Draft) (column : String) (b : Bool) :
    f (d.boolTest column b) = (f d).boolTest column b := by
  refine (hf.setNested _ true).trans (congrArg (Draft.setNested · true) ?_)
  rw [hf.bind, hf.put _ _ rfl, hf.put _ _ rfl]

/-- Such a map passes over a bound value. -/
theorem value (d : Draft) (v : Value) : (f d).value v = (d.value v).map f := by
  cases v with
  | null => exact congrArg Except.ok (hf.put d _ rfl).symm
  | list | record => rfl
  | _ => exact congrArg Except.ok (hf.bind d _).symm

/-- Such a map passes over a written value. -/
theorem literal (d : Draft) (p : Bool) (v : Value) : (f d).literal p v = (d.literal p v).map f := by
  unfold Draft.literal
  split
  · exact congrArg Except.ok (hf.truth d _).symm
  · exact hf.value d _

/-- Such a map passes over a bound list. -/
theorem valueList (d : Draft) (vs : List Value) :
    (f d).valueList vs = (d.valueList vs).map f := by
  induction vs generalizing d with
  | nil => rfl
  | cons v vs ih =>
    cases vs with
    | nil => exact hf.value d v
    | cons w vs =>
      simp only [Draft.valueList, hf.value, bind_map, map_bind, ← ih]
      congr 1
      funext d₁
      rw [hf.put _ _ rfl]

/-- Such a map passes over a membership test. -/
theorem contains {e : Entity} (collection item : Expr) (d : Draft) :
    Query.contains e collection item (f d) = (Query.contains e collection item d).map f := by
  unfold Query.contains
  simp only [map_bind]
  congr 1
  funext items
  split
  · exact congrArg Except.ok (by rw [hf.truth, hf.setNested])
  · rw [map_bind]
    congr 1
    funext column
    rw [← hf.setNested, ← hf.put _ _ rfl, ← hf.word, hf.valueList, bind_map, map_bind]
    congr 1
    funext d₁
    exact congrArg Except.ok (hf.word d₁ _).symm

end Commutes

/-- A map that the steps pass over too leaves it open whether a condition begins the text. -/
theorem CommutesWithSteps.beginFilter {e : Entity} {f : Draft → Draft}
    (hf : Commutes f) (hsteps : CommutesWithSteps e f) (d : Draft) :
    f d.beginFilter = (f d).beginFilter := by
  unfold Draft.beginFilter
  rw [hf.setNested, hsteps.isEmpty]
  split
  · rfl
  · rw [hsteps.openGroup]

end Draft

/-- Whether an expression has, at the places that a walk comes to, neither the table nor a step. -/
def Expr.isPredicate : Expr → Bool
  | .binary _ left right => left.isPredicate && right.isPredicate
  | .unary _ operand => operand.isPredicate
  | .lambda _ body => body.isPredicate
  | .call op _ => op == .contains
  | .constant _ | .column _ | .captured _ | .param _ | .construct _ => true
  | .source => false

namespace Query

variable {e : Entity}

/-- A walk behind the image of a draft ends with the image of the draft that it ends with behind
the draft itself. A step is no part of a predicate. -/
theorem visit_commutes {f : Draft → Draft} (hf : Draft.Commutes f) (p : Bool) {x : Expr}
    (hsteps : x.isPredicate = true ∨ Draft.CommutesWithSteps e f) (d : Draft) :
    visit e p x (f d) = (visit e p x d).map f := by
  induction p, x using visit_induction e generalizing d with
  | source p => rw [visit, visit]; rfl
  | constant p v => rw [visit_constant, visit_constant, hf.literal]
  | captured p c =>
    rw [visit_captured, visit_captured, map_bind]
    congr 1
    funext v
    exact hf.literal d p v
  | column p name =>
    rw [visit_column, visit_column, map_bind]
    congr 1
    funext column
    split
    · exact congrArg Except.ok (hf.boolTest d _ _).symm
    · exact congrArg Except.ok (hf.put d _ rfl).symm
  | binary p op left right ihl ihr =>
    have hleft : left.isPredicate = true ∨ Draft.CommutesWithSteps e f :=
      hsteps.imp_left fun h => (Bool.and_eq_true_iff.mp h).1
    have hright : right.isPredicate = true ∨ Draft.CommutesWithSteps e f :=
      hsteps.imp_left fun h => (Bool.and_eq_true_iff.mp h).2
    have operand (swap : Bool) (d : Draft) :
        visit e op.isLogical (if swap then right else left) (f d) =
          (visit e op.isLogical (if swap then right else left) d).map f := by
      cases swap with
      | true => exact ihr hright d
      | false => exact ihl hleft d
    have other (swap : Bool) (d : Draft) :
        visit e op.isLogical (if swap then left else right) (f d) =
          (visit e op.isLogical (if swap then left else right) d).map f := by
      cases swap with
      | true => exact ihl hleft d
      | false => exact ihr hright d
    rw [visit_binary, visit_binary]
    simp only [map_bind, hf.nested, ← hf.begun, operand, bind_map, ← hf.op, other, ← hf.ended]
    rfl
  | convert p x ih | lambda p param x ih => rw [visit, visit]; exact ih hsteps d
  | not p x ih =>
    rw [visit_not, visit_not]
    split
    · rw [map_bind]
      congr 1
      funext column
      exact congrArg Except.ok (hf.boolTest d _ _).symm
    · simp only [← hf.word, ← hf.setNested, ih hsteps, bind_map, map_bind]
      rfl
  | contains p collection item => rw [visit_contains, visit_contains, hf.contains]
  | filter p op src arg rest hop ih iharg =>
    rcases hsteps with hx | hsteps
    · obtain rfl : op = .contains := eq_of_beq hx
      cases hop
    · rw [visit_filter _ hop, visit_filter _ hop]
      simp only [ih (.inr hsteps), bind_map, map_bind, hsteps.isEmpty, ← hsteps.beginFilter hf,
        iharg (.inr hsteps), ← hf.endFilter, ← hsteps.afterFilter]
      rfl
  | unfiltered p op src hop ih =>
    rcases hsteps with hx | hsteps
    · obtain rfl : op = .contains := eq_of_beq hx
      cases hop
    · rw [visit_unfiltered _ hop, visit_unfiltered _ hop]
      simp only [ih (.inr hsteps), bind_map, map_bind, ← hsteps.afterFilter]
      rfl
  | step p op src args hop hne ih =>
    rcases hsteps with hx | hsteps
    · exact absurd (eq_of_beq hx) hne
    · rw [visit_step _ hop hne, visit_step _ hop hne, ih (.inr hsteps), bind_map, map_bind]
      congr 1
      funext d₁
      exact hsteps.applyStep op args.head? d₁
  | refused p x fault hfault => rw [hfault, hfault]; rfl

end Query

/-! ## Conditions and rows -/

/-- A draft with what another one says about rows and columns. -/
def Draft.over (d r : Draft) : Draft :=
  { d with skip := r.skip, take := r.take, order := r.order, mode := r.mode, selected := r.selected }

/-- Exchanging what a draft says about rows and columns passes over everything that is written. -/
theorem Draft.commutes_over (r : Draft) : Commutes (·.over r) where
  nested _ := rfl
  setNested _ _ := rfl
  put _ _ _ := rfl
  bind _ _ := rfl

namespace Query

/-- What a draft says about rows and columns is passed over by the beginning of a condition. -/
theorem over_beginFilter (d r : Draft) : (d.over r).beginFilter = d.beginFilter.over r := by
  unfold Draft.beginFilter
  show Draft.setNested (if d.tokens.isEmpty then d.over r else (d.over r).openGroup) false = _
  split <;> rfl

/-- What a draft says about rows and columns is passed over by the end of a condition. -/
theorem over_endFilter (d r : Draft) (first : Bool) :
    (d.over r).endFilter first = (d.endFilter first).over r :=
  ((Draft.commutes_over r).endFilter d first).symm

/-- A walk over a predicate leaves alone what a draft says about rows and columns. -/
theorem visit_over {e : Entity} (p : Bool) {x : Expr} (hx : x.isPredicate = true) (d r : Draft) :
    visit e p x (d.over r) = (visit e p x d).map (·.over r) :=
  visit_commutes (Draft.commutes_over r) p (.inl hx) d

end Query

end SqlCompose
