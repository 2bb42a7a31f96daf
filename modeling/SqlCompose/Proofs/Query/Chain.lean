import SqlCompose.Proofs.Query.Independence
import SqlCompose.Sample.Users

/-!
# Chains of steps

A query that is built step by step is a chain that begins at the table. Its translation is a fold
over the steps: the conditions are those of the predicates in their order, and of what the steps
say about rows and columns the last word counts. A chain fails like the first of its steps that
fails on its own. So a `filter` can be moved past all steps without a predicate.
-/

namespace SqlCompose

/-! ## Chains -/

/-- A step of a chain, without the query that it extends. -/
structure Link where
  /-- What the step does. -/
  op : Operator
  /-- Its arguments. -/
  args : List Expr
  /-- A membership test extends no query. -/
  isStep : op ≠ .contains

/-- The query made of steps one after the other, from the table on. -/
def chain (steps : List Link) : Expr := steps.foldl (fun x s => .call s.op (x :: s.args)) .source

namespace Link

/-- The step that keeps the rows which satisfy a predicate. -/
def ofPredicate (p : Expr) : Link := ⟨.filter, [p], by decide⟩

/-- The predicate of a step. -/
def predicate? (s : Link) : Option Expr :=
  if Query.takesPredicate s.op then s.args.head? else none

/-- Whether a step says how many rows are skipped. -/
def skips (s : Link) : Bool := s.op == .skip

/-- Whether a step says how many rows are taken. -/
def takes (s : Link) : Bool :=
  match s.op with
  | .take | .first | .firstOrDefault | .single | .singleOrDefault | .any => true
  | _ => false

/-- Whether a step sorts the rows. -/
def sorts (s : Link) : Bool := s.op == .orderBy || s.op == .orderByDescending

/-- Whether a step says what the query answers with. -/
def answers (s : Link) : Bool := s.op == .any || s.op == .count || s.op == .select

/-- Whether a step says which columns are kept. -/
def selects (s : Link) : Bool := s.op == .select

/-- The row count of a step. -/
def count? (s : Link) : Option UInt64 := s.args.head?.bind Expr.rowCount?

/-- How many rows a step takes: as many as it says, or one. -/
def taken? (s : Link) : Option UInt64 := if s.op = .take then s.count? else some 1

/-- The ordering of a step. -/
def order? (e : Entity) (s : Link) : Option OrderBy :=
  (s.args.head?.bind fun x => (e.member x).toOption).map fun c => ⟨c, s.op == .orderByDescending⟩

/-- What a query answers with because of a step. -/
def mode (s : Link) : ResultMode :=
  match s.op with
  | .any => .any
  | .count => .count
  | _ => .project

/-- The columns that a step keeps. -/
def selected? (e : Entity) (s : Link) : Option SelectList :=
  s.args.head?.bind fun x => (e.projection x).toOption

/-- What a step does to a draft. -/
def extend (e : Entity) (s : Link) (d : Draft) : Except QueryError Draft :=
  if Query.takesPredicate s.op then
    match s.args with
    | [] => .ok (Query.afterFilter s.op d)
    | p :: _ => do
      let d₁ ← Query.visit e true p d.beginFilter
      .ok (Query.afterFilter s.op (d₁.endFilter d.tokens.isEmpty))
  else Query.applyStep e s.op s.args.head? d

end Link

/-- The predicates of steps, in their order. -/
def predicates (steps : List Link) : List Expr := steps.filterMap Link.predicate?

/-- The last step of some kind. -/
def lastOf (kind : Link → Bool) (steps : List Link) : Option Link := (steps.filter kind).getLast?

/-- The last step of a chain wraps the chain of the others. -/
theorem chain_concat (steps : List Link) (s : Link) :
    chain (steps ++ [s]) = .call s.op (chain steps :: s.args) := by
  simp [chain]

namespace Query

variable {e : Entity} {steps : List Link} {d d' : Draft}

/-! ## The fold -/

/-- A chain of one step. -/
theorem foldlM_singleton (s : Link) (d : Draft) :
    [s].foldlM (fun d s => s.extend e d) d = s.extend e d := by
  rw [List.foldlM_cons]
  cases s.extend e d <;> rfl

/-- A walk over a step is a walk over the query that it extends, and then the step. -/
theorem visit_link {p : Bool} (s : Link) (x : Expr) (d : Draft) :
    visit e p (.call s.op (x :: s.args)) d = visit e false x d >>= s.extend e := by
  obtain ⟨op, args, hop⟩ := s
  unfold Link.extend
  cases htakes : takesPredicate op with
  | false =>
    rw [visit_step _ htakes hop]
    simp
  | true =>
    cases args with
    | nil =>
      rw [visit_unfiltered _ htakes]
      simp
    | cons p rest =>
      rw [visit_filter _ htakes]
      simp

/-- A walk over a chain is a fold over its steps. -/
theorem visit_chain {p : Bool} (steps : List Link) (d : Draft) :
    visit e p (chain steps) d = steps.foldlM (fun d s => s.extend e d) d := by
  induction steps using List.reverseRecOn generalizing p with
  | nil => exact visit_source e p d
  | append_singleton steps s ih =>
    rw [chain_concat, visit_link, ih, List.foldlM_append]
    cases steps.foldlM (fun d s => s.extend e d) d with
    | error fault => rfl
    | ok d₁ => exact (foldlM_singleton s d₁).symm

/-! ## One step -/

/-- What a step does: one that can have a predicate writes it, and then says what it has to say
about rows; another one says what it says with its argument. -/
theorem extend_cases {s : Link} (h : s.extend e d = .ok d') :
    (s.predicate? = none ∧ takesPredicate s.op = true ∧ d' = afterFilter s.op d) ∨
    (∃ p d₁, s.predicate? = some p ∧ takesPredicate s.op = true ∧
      visit e true p d.beginFilter = .ok d₁ ∧
      d' = afterFilter s.op (d₁.endFilter d.tokens.isEmpty)) ∨
    (s.predicate? = none ∧ takesPredicate s.op = false ∧
      applyStep e s.op s.args.head? d = .ok d') := by
  unfold Link.extend at h
  unfold Link.predicate?
  cases htakes : takesPredicate s.op with
  | false =>
    rw [if_neg (by simp [htakes])] at h
    exact .inr (.inr ⟨by simp, rfl, h⟩)
  | true =>
    rw [if_pos htakes] at h
    split at h
    next hargs =>
      cases h
      exact .inl ⟨by simp [hargs], rfl, rfl⟩
    next p rest hargs =>
      obtain ⟨d₁, hvisit, h⟩ := bind_eq_ok.mp h
      cases h
      exact .inr (.inl ⟨p, d₁, by simp [hargs], rfl, hvisit, rfl⟩)

/-- A step with a predicate writes this predicate, and then says what it has to say about rows. -/
theorem extend_eq_ok_of_predicate {s : Link} {p : Expr} (hs : s.predicate? = some p) :
    s.extend e d = .ok d' ↔ ∃ d₁, visit e true p d.beginFilter = .ok d₁ ∧
      afterFilter s.op (d₁.endFilter d.tokens.isEmpty) = d' := by
  unfold Link.predicate? at hs
  split at hs
  next htakes =>
    obtain ⟨rest, hargs⟩ := List.head?_eq_some_iff.mp hs
    unfold Link.extend
    rw [if_pos htakes, hargs]
    simp only [bind_eq_ok, Except.ok.injEq]
  next => cases hs

/-- A predicate leaves what a draft says about rows and columns. -/
theorem over_eq_of_visit {p : Bool} {x : Expr} (hx : x.isPredicate = true)
    (h : visit e p x d = .ok d') : d'.over d = d' := by
  have hover := visit_over (e := e) p hx d d
  rw [show d.over d = d from rfl, h] at hover
  exact (Except.ok.inj hover).symm

/-- The rows and columns of a draft do not change when a condition begins. -/
theorem over_beginFilter_rows (d₁ d : Draft) : d₁.over d.beginFilter = d₁.over d := by
  unfold Draft.beginFilter
  split <;> rfl

/-- Only the rows and columns of a draft change behind a condition. -/
theorem over_afterFilter (op : Operator) (d r : Draft) :
    (afterFilter op d).over r = d.over r := by
  cases op <;> rfl

/-- A step without a predicate says something about rows and columns only. -/
theorem over_applyStep {op : Operator} {arg : Option Expr} (h : applyStep e op arg d = .ok d')
    (r : Draft) : d'.over r = d.over r := by
  cases applied_of_applyStep h <;> rfl

/-- What a draft says about rows and columns after a step. -/
structure Says (e : Entity) (s : Link) (d d' : Draft) : Prop where
  skip : d'.skip = if s.skips then s.count? else d.skip
  take : d'.take = if s.takes then s.taken? else d.take
  order : d'.order = if s.sorts then s.order? e else d.order
  mode : d'.mode = if s.answers then s.mode else d.mode
  selected : d'.selected = if s.selects then s.selected? e else d.selected

/-- A step with a predicate says of rows and columns what its operator says. -/
theorem says_afterFilter {s : Link} (hs : takesPredicate s.op = true) {d₁ : Draft}
    (hrows : d₁.over d = d₁) : Says e s d (afterFilter s.op d₁) := by
  obtain ⟨op, args, hop⟩ := s
  rw [← hrows]
  cases op <;> first | exact ⟨rfl, rfl, rfl, rfl, rfl⟩ | cases hs

/-- A step without a predicate says of rows and columns what its argument says. -/
theorem says_applyStep {s : Link} (hs : takesPredicate s.op = false)
    (h : applyStep e s.op s.args.head? d = .ok d') : Says e s d d' := by
  obtain ⟨op, args, hop⟩ := s
  generalize hargs : args.head? = arg at h
  cases applied_of_applyStep h with
  | take hn | skip hn =>
    rw [← hargs] at hn
    constructor <;> first | rfl | exact hn.symm
  | @order _ selector column _ hsorts hcolumn =>
    have horder : (Link.mk op args hop).order? e = some ⟨column, op == .orderByDescending⟩ := by
      simp only [Link.order?, hargs, Option.bind_some, hcolumn]
      rfl
    rcases hsorts with rfl | rfl <;> constructor <;> first | rfl | exact horder.symm
  | @select selector selected _ hprojection =>
    have hselected : (Link.mk .select args hop).selected? e = some selected := by
      simp only [Link.selected?, hargs, Option.bind_some, hprojection]
      rfl
    constructor <;> first | rfl | exact hselected.symm
  | other hother =>
    rcases hother with htakes | hcontains
    · rw [hs] at htakes
      cases htakes
    · exact absurd hcontains hop

/-- A step whose predicate is one says no more than it should. -/
theorem says_extend {s : Link} (hp : ∀ p ∈ s.predicate?, p.isPredicate = true)
    (h : s.extend e d = .ok d') : Says e s d d' := by
  rcases extend_cases h with ⟨-, hs, rfl⟩ | ⟨p, d₁, hpredicate, hs, hvisit, rfl⟩ | ⟨-, hs, h⟩
  · exact says_afterFilter hs rfl
  · refine says_afterFilter hs ?_
    rw [← over_endFilter, ← over_beginFilter_rows, over_eq_of_visit (hp p hpredicate) hvisit]
  · exact says_applyStep hs h

/-- A step with a predicate adds the condition of this predicate to the condition. -/
theorem extend_over_some {s : Link} {p : Expr} (hs : s.predicate? = some p)
    (hp : p.isPredicate = true) (h : s.extend e d = .ok d') (r : Draft) :
    (Link.ofPredicate p).extend e (d.over r) = .ok (d'.over r) := by
  obtain ⟨d₁, hvisit, rfl⟩ := (extend_eq_ok_of_predicate hs).mp h
  have hover := visit_over (e := e) true hp d.beginFilter r
  rw [hvisit, ← over_beginFilter] at hover
  refine (extend_eq_ok_of_predicate rfl).mpr ⟨d₁.over r, hover, ?_⟩
  rw [over_endFilter, over_afterFilter]
  rfl

/-- A step without a predicate leaves the condition alone. -/
theorem extend_over_none {s : Link} (hs : s.predicate? = none) (h : s.extend e d = .ok d')
    (r : Draft) : d'.over r = d.over r := by
  rcases extend_cases h with ⟨-, -, rfl⟩ | ⟨q, d₁, hq, -⟩ | ⟨-, -, happlied⟩
  · exact over_afterFilter _ _ _
  · simp [hs] at hq
  · exact over_applyStep happlied r

/-! ## All steps -/

/-- What a draft says about rows and columns behind several steps: what the last of them says that
says something, or what it said before. -/
structure SaysLast (e : Entity) (steps : List Link) (d d' : Draft) : Prop where
  skip : d'.skip = ((lastOf Link.skips steps).map Link.count?).getD d.skip
  take : d'.take = ((lastOf Link.takes steps).map Link.taken?).getD d.take
  order : d'.order = ((lastOf Link.sorts steps).map (Link.order? e)).getD d.order
  mode : d'.mode = ((lastOf Link.answers steps).map Link.mode).getD d.mode
  selected : d'.selected = ((lastOf Link.selects steps).map (Link.selected? e)).getD d.selected

namespace SaysLast

variable {later : List Link} {d₁ : Draft}

/-- A draft that differs in its condition alone has had no step say anything. -/
theorem of_over (h : d'.over d = d') : SaysLast e [] d d' := by
  rw [← h]
  exact ⟨rfl, rfl, rfl, rfl, rfl⟩

/-- What one step says is what the last of that one step says. -/
theorem single {s : Link} (h : Says e s d d') : SaysLast e [s] d d' := by
  have last {β : Type} (kind : Link → Bool) (said : Link → β) (before : β) :
      (if kind s then said s else before) = ((lastOf kind [s]).map said).getD before := by
    unfold lastOf
    cases hkind : kind s <;> simp [hkind]
  exact ⟨h.skip.trans (last ..), h.take.trans (last ..), h.order.trans (last ..),
    h.mode.trans (last ..), h.selected.trans (last ..)⟩

/-- Later steps have the word, unless they say nothing. -/
theorem trans (h : SaysLast e steps d d₁) (h' : SaysLast e later d₁ d') :
    SaysLast e (steps ++ later) d d' := by
  have last {β : Type} (kind : Link → Bool) (said : Link → β) (before : β) :
      ((lastOf kind later).map said).getD (((lastOf kind steps).map said).getD before) =
        ((lastOf kind (steps ++ later)).map said).getD before := by
    unfold lastOf
    rw [List.filter_append, List.getLast?_append]
    cases (later.filter kind).getLast? <;> rfl
  constructor
  · rw [h'.skip, h.skip, last]
  · rw [h'.take, h.take, last]
  · rw [h'.order, h.order, last]
  · rw [h'.mode, h.mode, last]
  · rw [h'.selected, h.selected, last]

end SaysLast

/-- Of what the steps of a chain say, the last word counts. -/
theorem saysLast_foldlM (hp : ∀ p ∈ predicates steps, p.isPredicate = true)
    (h : steps.foldlM (fun d s => s.extend e d) d = .ok d') : SaysLast e steps d d' := by
  induction steps generalizing d with
  | nil => cases h; exact .of_over rfl
  | cons s steps ih =>
    rw [List.foldlM_cons] at h
    obtain ⟨d₁, hs, h⟩ := bind_eq_ok.mp h
    have hfirst : Says e s d d₁ := by
      refine says_extend (fun p hpredicate => hp p ?_) hs
      exact List.mem_filterMap.mpr ⟨s, by simp, hpredicate⟩
    refine (SaysLast.single hfirst).trans (ih (fun p hmem => hp p ?_) h)
    obtain ⟨u, hu, hpredicate⟩ := List.mem_filterMap.mp hmem
    exact List.mem_filterMap.mpr ⟨u, by simp [hu], hpredicate⟩

/-- The condition of a chain is that of its predicates. -/
theorem foldlM_over (hp : ∀ p ∈ predicates steps, p.isPredicate = true)
    (h : steps.foldlM (fun d s => s.extend e d) d = .ok d') (r : Draft) :
    ((predicates steps).map Link.ofPredicate).foldlM (fun d s => s.extend e d) (d.over r) =
      .ok (d'.over r) := by
  induction steps generalizing d with
  | nil => cases h; rfl
  | cons s steps ih =>
    rw [List.foldlM_cons] at h
    obtain ⟨d₁, hs, h⟩ := bind_eq_ok.mp h
    unfold predicates at hp ih ⊢
    cases hpredicate : s.predicate? with
    | none =>
      rw [List.filterMap_cons_none hpredicate] at hp ⊢
      rw [← extend_over_none hpredicate hs r]
      exact ih hp h
    | some p =>
      rw [List.filterMap_cons_some hpredicate] at hp ⊢
      obtain ⟨hfirst, hp⟩ := List.forall_mem_cons.mp hp
      rw [List.map_cons, List.foldlM_cons, extend_over_some hpredicate hfirst hs r]
      exact ih hp h

/-! ## Failing -/

/-- How a step ends does not depend on the query that it extends. -/
theorem endsAlike_extend (s : Link) (d d' : Draft) : EndsAlike (s.extend e d) (s.extend e d') := by
  unfold Link.extend
  split
  · split
    · exact .ok _ _
    · exact (endsAlike_visit _ _ _ _).bind fun _ _ => .ok _ _
  · exact endsAlike_applyStep _ _ _ _

/-- What comes behind others that pass comes first, or behind a first one that passes too. -/
theorem exists_behind_cons {α : Type} {Passes Fails : α → Prop} {x : α} {xs : List α} :
    (∃ before y after, x :: xs = before ++ y :: after ∧ (∀ u ∈ before, Passes u) ∧ Fails y) ↔
      Fails x ∨ Passes x ∧
        ∃ before y after, xs = before ++ y :: after ∧ (∀ u ∈ before, Passes u) ∧ Fails y := by
  constructor
  · rintro ⟨before, y, after, hsplit, hbefore, hy⟩
    cases before with
    | nil =>
      obtain ⟨rfl, rfl⟩ := List.cons_eq_cons.mp hsplit
      exact .inl hy
    | cons u before =>
      obtain ⟨rfl, rfl⟩ := List.cons_eq_cons.mp hsplit
      obtain ⟨hx, hbefore⟩ := List.forall_mem_cons.mp hbefore
      exact .inr ⟨hx, before, y, after, rfl, hbefore, hy⟩
  · rintro (hx | ⟨hx, before, y, after, rfl, hbefore, hy⟩)
    · exact ⟨[], x, xs, rfl, by simp, hx⟩
    · exact ⟨x :: before, y, after, rfl, List.forall_mem_cons.mpr ⟨hx, hbefore⟩, hy⟩

/-- A chain fails with an error if and only if its first step that fails does. A step fails in the
chain as it does on its own. -/
theorem foldlM_eq_error {fault : QueryError} :
    steps.foldlM (fun d s => s.extend e d) d = .error fault ↔
      ∃ before s after, steps = before ++ s :: after ∧
        (∀ u ∈ before, ∃ d₁, u.extend e Draft.empty = .ok d₁) ∧
        s.extend e Draft.empty = .error fault := by
  induction steps generalizing d with
  | nil =>
    constructor
    · intro h
      cases h
    · rintro ⟨before, s, after, hsplit, -⟩
      simp at hsplit
  | cons s steps ih =>
    have halike := endsAlike_extend (e := e) s d Draft.empty
    rw [List.foldlM_cons, exists_behind_cons, bind_eq_error]
    cases hs : s.extend e d with
    | error fault' => simp [halike.eq_error hs]
    | ok d₁ =>
      obtain ⟨d₂, halone⟩ := halike.eq_ok hs
      simp [halone, ih]

/-- A chain has a draft if and only if each of its steps has one. -/
theorem exists_foldlM_iff :
    (∃ d', steps.foldlM (fun d s => s.extend e d) d = .ok d') ↔
      ∀ s ∈ steps, ∃ d₁, s.extend e Draft.empty = .ok d₁ := by
  induction steps generalizing d with
  | nil => exact ⟨fun _ => by simp, fun _ => ⟨d, rfl⟩⟩
  | cons s steps ih =>
    have halike := endsAlike_extend (e := e) s d Draft.empty
    rw [List.foldlM_cons, List.forall_mem_cons]
    constructor
    · rintro ⟨d', h⟩
      obtain ⟨d₁, hs, h⟩ := bind_eq_ok.mp h
      exact ⟨halike.eq_ok hs, ih.mp ⟨d', h⟩⟩
    · rintro ⟨⟨d₂, hs⟩, h⟩
      obtain ⟨d₁, hs⟩ := halike.symm.eq_ok hs
      rw [hs]
      exact ih.mpr h

end Query

/-! ## Moving filters -/

/-- The steps of a chain that are no `filter`. -/
def others (steps : List Link) : List Link := steps.filter fun s => s.op != .filter

/-- The last step of a kind that no `filter` is of. -/
theorem lastOf_others {kind : Link → Bool} (h : ∀ s, kind s = true → s.op ≠ .filter)
    (steps : List Link) : lastOf kind (others steps) = lastOf kind steps := by
  unfold lastOf others
  rw [List.filter_filter]
  congr 1
  apply List.filter_congr
  intro s _
  cases hkind : kind s with
  | false => rfl
  | true => simpa using h s hkind

namespace Query

variable {e : Entity} {steps moved : List Link}

/-- A step with a predicate has a draft if and only if its predicate has one. -/
theorem exists_extend_iff {s : Link} {p : Expr} (hs : s.predicate? = some p) :
    (∃ d, s.extend e Draft.empty = .ok d) ↔
      ∃ d, visit e true p Draft.empty.beginFilter = .ok d := by
  constructor
  · rintro ⟨d, h⟩
    obtain ⟨d₁, hvisit, -⟩ := (extend_eq_ok_of_predicate hs).mp h
    exact ⟨d₁, hvisit⟩
  · rintro ⟨d₁, hvisit⟩
    exact ⟨_, (extend_eq_ok_of_predicate hs).mpr ⟨d₁, hvisit, rfl⟩⟩

/-- If each step of a chain has a draft on its own, so has each step of a chain with the filters
elsewhere. -/
theorem exists_extend_of_moved (hpredicates : predicates moved = predicates steps)
    (hothers : others moved = others steps)
    (h : ∀ s ∈ steps, ∃ d, s.extend e Draft.empty = .ok d) :
    ∀ s ∈ moved, ∃ d, s.extend e Draft.empty = .ok d := by
  intro s hs
  by_cases hfilter : s.op = .filter
  · cases hpredicate : s.predicate? with
    | none =>
      have hargs : s.args = [] := by
        simpa [Link.predicate?, hfilter, takesPredicate] using hpredicate
      refine ⟨Draft.empty, ?_⟩
      simp [Link.extend, hfilter, hargs, takesPredicate, afterFilter]
    | some p =>
      have hmem : p ∈ predicates moved := List.mem_filterMap.mpr ⟨s, hs, hpredicate⟩
      rw [hpredicates] at hmem
      obtain ⟨u, hu, hup⟩ := List.mem_filterMap.mp hmem
      exact (exists_extend_iff hpredicate).mpr ((exists_extend_iff hup).mp (h u hu))
  · have hmem : s ∈ others moved := List.mem_filter.mpr ⟨hs, by simpa using hfilter⟩
    rw [hothers] at hmem
    exact h s (List.mem_of_mem_filter hmem)

end Query

/-! ## Plans -/

section Plans

variable {d : Dialect} {e : Entity} {steps : List Link}

/-- The plan of a chain is that of the draft to which its steps extend the empty one. -/
theorem planQuery_chain_eq_map : d.planQuery e (chain steps) =
    (steps.foldlM (fun d (s : Link) => s.extend e d) Draft.empty).map d.ofDraft := by
  rw [Dialect.planQuery, Query.draft, Query.visit_chain]

/-- A chain is planned just when its steps extend the empty draft one after the other, and the plan
is that of their draft. -/
theorem planQuery_chain_eq_ok {t : Plan} :
    d.planQuery e (chain steps) = .ok t ↔
      ∃ d₁, steps.foldlM (fun d s => s.extend e d) Draft.empty = .ok d₁ ∧ d.ofDraft d₁ = t := by
  rw [planQuery_chain_eq_map]
  cases steps.foldlM (fun d s => s.extend e d) Draft.empty <;> simp [Except.map]

/-- A chain is refused with the error of the step at which the steps fail. -/
theorem planQuery_chain_eq_error {fault : QueryError} :
    d.planQuery e (chain steps) = .error fault ↔
      steps.foldlM (fun d s => s.extend e d) Draft.empty = .error fault := by
  rw [planQuery_chain_eq_map]
  cases steps.foldlM (fun d s => s.extend e d) Draft.empty <;> simp [Except.map]

/-- The condition and the parameters of a plan are those of the chain of the filters, and of what
the steps say about rows and columns the last word counts. -/
structure Plan.IsFold (t : Plan) (d : Dialect) (e : Entity) (steps : List Link) : Prop where
  filters : ∃ w, d.planQuery e (chain ((predicates steps).map Link.ofPredicate)) = .ok w ∧
    t.fragment = w.fragment ∧ t.params = w.params
  skip : t.skip = (lastOf Link.skips steps).bind Link.count?
  take : t.take = (lastOf Link.takes steps).bind Link.taken?
  order : t.order = ((lastOf Link.sorts steps).bind (Link.order? e)).map
    fun o => ⟨d.quote o.column, o.descending⟩
  mode : t.mode = ((lastOf Link.answers steps).map Link.mode).getD .all
  projection : t.projection =
    ((lastOf Link.selects steps).bind (Link.selected? e)).map d.selectList

/-- Two chains with the same filters in the same order, and with the same last words. Both have
the condition of one chain, that of the filters. -/
theorem Plan.IsFold.eq {t t' : Plan} {moved : List Link} (ht : t.IsFold d e steps)
    (ht' : t'.IsFold d e moved) (hpredicates : predicates moved = predicates steps)
    (hothers : others moved = others steps) : t' = t := by
  have last (kind : Link → Bool) (hkind : ∀ s, kind s = true → s.op ≠ .filter) :
      lastOf kind moved = lastOf kind steps := by
    rw [← lastOf_others hkind moved, hothers, lastOf_others hkind]
  obtain ⟨w, hw, hfragment, hparams⟩ := ht.filters
  obtain ⟨w', hw', hfragment', hparams'⟩ := ht'.filters
  rw [hpredicates, hw] at hw'
  obtain rfl : w = w' := Except.ok.inj hw'
  have hskip : t'.skip = t.skip := by
    rw [ht'.skip, ht.skip, last _ (by rintro ⟨op, _, _⟩ h rfl; cases h)]
  have htake : t'.take = t.take := by
    rw [ht'.take, ht.take, last _ (by rintro ⟨op, _, _⟩ h rfl; cases h)]
  have horder : t'.order = t.order := by
    rw [ht'.order, ht.order, last _ (by rintro ⟨op, _, _⟩ h rfl; cases h)]
  have hmode : t'.mode = t.mode := by
    rw [ht'.mode, ht.mode, last _ (by rintro ⟨op, _, _⟩ h rfl; cases h)]
  have hprojection : t'.projection = t.projection := by
    rw [ht'.projection, ht.projection, last _ (by rintro ⟨op, _, _⟩ h rfl; cases h)]
  obtain ⟨fragment, params, mode, projection, skip, take, order⟩ := t
  cases t'
  simp_all

/-- What a plan says about rows and columns is what the last of some steps says. -/
structure Plan.SaysLast (t : Plan) (d : Dialect) (e : Entity) (steps : List Link) : Prop where
  skip : t.skip = (lastOf Link.skips steps).bind Link.count?
  take : t.take = (lastOf Link.takes steps).bind Link.taken?
  order : t.order = ((lastOf Link.sorts steps).bind (Link.order? e)).map
    fun o => ⟨d.quote o.column, o.descending⟩
  mode : t.mode = ((lastOf Link.answers steps).map Link.mode).getD .all
  projection : t.projection =
    ((lastOf Link.selects steps).bind (Link.selected? e)).map d.selectList

/-- A plan says of rows and columns what the draft it is made from says. -/
theorem saysLast_ofDraft {d₁ : Draft} (h : Query.SaysLast e steps Draft.empty d₁) :
    (d.ofDraft d₁).SaysLast d e steps := by
  constructor
  · show d₁.skip = _
    rw [h.skip]
    cases lastOf Link.skips steps <;> rfl
  · show d₁.take = _
    rw [h.take]
    cases lastOf Link.takes steps <;> rfl
  · show d₁.order.map _ = _
    rw [h.order]
    cases lastOf Link.sorts steps <;> rfl
  · exact h.mode
  · show d₁.selected.map _ = _
    rw [h.selected]
    cases lastOf Link.selects steps <;> rfl

/-- A chain is translated like a fold over its steps. -/
theorem isFold_of_planQuery {t : Plan} (hp : ∀ p ∈ predicates steps, p.isPredicate = true)
    (h : d.planQuery e (chain steps) = .ok t) : t.IsFold d e steps := by
  obtain ⟨d₁, hfold, rfl⟩ := planQuery_chain_eq_ok.mp h
  have hfilters := Query.foldlM_over hp hfold Draft.empty
  rw [show Draft.empty.over Draft.empty = Draft.empty from rfl] at hfilters
  have hlast := saysLast_ofDraft (d := d) (Query.saysLast_foldlM hp hfold)
  exact ⟨⟨_, planQuery_chain_eq_ok.mpr ⟨_, hfilters, rfl⟩, rfl, rfl⟩, hlast.skip, hlast.take,
    hlast.order, hlast.mode, hlast.projection⟩

/-- How a step ends on its own. -/
theorem planQuery_chain_singleton_eq_error {s : Link} {fault : QueryError} :
    d.planQuery e (chain [s]) = .error fault ↔ s.extend e Draft.empty = .error fault := by
  rw [planQuery_chain_eq_error, Query.foldlM_singleton]

/-- A chain has a plan if and only if each of its steps has a draft. -/
theorem exists_planQuery_chain : (∃ t, d.planQuery e (chain steps) = .ok t) ↔
    ∀ s ∈ steps, ∃ d₁, s.extend e Draft.empty = .ok d₁ := by
  rw [← Query.exists_foldlM_iff (d := Draft.empty)]
  simp [planQuery_chain_eq_ok]

/-- A single step is planned just when it extends the empty draft. -/
theorem exists_planQuery_chain_singleton {s : Link} :
    (∃ t, d.planQuery e (chain [s]) = .ok t) ↔ ∃ d₁, s.extend e Draft.empty = .ok d₁ := by
  rw [exists_planQuery_chain, List.forall_mem_singleton]

/-- A chain of steps is translated like a fold over them. If it has a plan, its condition and its
parameters are those of the filters, and of the steps that say something about rows and columns the
last one counts. If it has none, the error is that of the first step which has none on its own. And
a chain in which the filters stand elsewhere, but in the same order, has the same plan. -/
theorem planQuery_chain (d : Dialect) (e : Entity) (steps : List Link)
    (hp : ∀ p ∈ predicates steps, p.isPredicate = true) :
    (∀ t, d.planQuery e (chain steps) = .ok t → t.IsFold d e steps) ∧
    (∀ fault, d.planQuery e (chain steps) = .error fault ↔
      ∃ before s after, steps = before ++ s :: after ∧
        (∀ u ∈ before, ∃ t, d.planQuery e (chain [u]) = .ok t) ∧
        d.planQuery e (chain [s]) = .error fault) ∧
    ∀ moved, predicates moved = predicates steps → others moved = others steps →
      ∀ t, d.planQuery e (chain moved) = .ok t ↔ d.planQuery e (chain steps) = .ok t := by
  refine ⟨fun t => isFold_of_planQuery hp, ?_, ?_⟩
  · intro fault
    rw [planQuery_chain_eq_error, Query.foldlM_eq_error]
    simp only [planQuery_chain_singleton_eq_error, exists_planQuery_chain_singleton]
  · have moves (steps moved : List Link) (hp : ∀ p ∈ predicates steps, p.isPredicate = true)
        (hpredicates : predicates moved = predicates steps)
        (hothers : others moved = others steps) (t : Plan)
        (h : d.planQuery e (chain steps) = .ok t) : d.planQuery e (chain moved) = .ok t := by
      have halone := exists_planQuery_chain.mp ⟨t, h⟩
      have hmoved := Query.exists_extend_of_moved hpredicates hothers halone
      obtain ⟨t', hplan⟩ := exists_planQuery_chain.mpr hmoved
      have hfold₁ := isFold_of_planQuery hp h
      have hfold₂ := isFold_of_planQuery (hpredicates ▸ hp) hplan
      rw [hplan, hfold₁.eq hfold₂ hpredicates hothers]
    intro moved hpredicates hothers t
    exact ⟨moves moved steps (hpredicates ▸ hp) hpredicates.symm hothers.symm t,
      moves steps moved hp hpredicates hothers t⟩

end Plans

/-- Steps for the second of the oldest adults, where the ordering by name does not count. -/
def secondOldest : List Link :=
  [⟨.orderBy, [.column "name"], by decide⟩,
    .ofPredicate (.binary .ge (.column "age") (.constant (.int 18))),
    ⟨.orderByDescending, [.column "age"], by decide⟩, ⟨.skip, [.rowCount 1], by decide⟩,
    ⟨.first, [.column "active"], by decide⟩]

/-- The same steps with the filter before all others. -/
def secondOldestFiltered : List Link :=
  [.ofPredicate (.binary .ge (.column "age") (.constant (.int 18))),
    ⟨.orderBy, [.column "name"], by decide⟩,
    ⟨.orderByDescending, [.column "age"], by decide⟩, ⟨.skip, [.rowCount 1], by decide⟩,
    ⟨.first, [.column "active"], by decide⟩]

/-- The second of the oldest adults: the last ordering counts, and the filter may stand anywhere. -/
theorem planQuery_chain_secondOldest :
    (∀ p ∈ predicates secondOldest, p.isPredicate = true) ∧
    ∃ t, Dialect.postgres.planQuery Sample.users (chain secondOldest) = .ok t ∧
      t.IsFold .postgres Sample.users secondOldest ∧ t.take = some 1 ∧ t.skip = some 1 ∧
      t.order = some ⟨"\"age\"", true⟩ ∧
      Dialect.postgres.planQuery Sample.users (chain secondOldestFiltered) = .ok t := by
  have hp : ∀ p ∈ predicates secondOldest, p.isPredicate = true := by decide
  obtain ⟨hfold, -, hmoved⟩ := planQuery_chain .postgres Sample.users secondOldest hp
  refine ⟨hp, ?_⟩
  cases h : Dialect.postgres.planQuery Sample.users (chain secondOldest) with
  | error fault => cases h
  | ok t =>
    have ht := hfold t h
    exact ⟨t, rfl, ht, ht.take, ht.skip, ht.order, (hmoved _ rfl rfl t).mpr h⟩

end SqlCompose
