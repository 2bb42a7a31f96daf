import SqlCompose.Proofs.Query.Chain
import SqlCompose.Proofs.Query.Naming
import SqlCompose.Proofs.Query.Selection
import SqlCompose.Session.Handle

/-!
# Queries composed with handles

A query that the operations of a handle compose is a chain of steps (`Composition.compile_eq`). If it
is compiled, each of its steps was accepted, so the columns that it names are declared, those in the
items of membership tests over empty collections excepted; and where these items are columns too, no
collection decides whether the query is compiled (`compile_composition`).
-/

namespace SqlCompose

/-! ## Compositions -/

/-- An operation that makes a longer query of a handle. -/
inductive Extension where
  /-- Keep the rows that satisfy a predicate. -/
  | filter (predicate : Expr)
  /-- Sort by a column. -/
  | orderBy (column : String)
  /-- Sort by a column, the largest first. -/
  | orderByDescending (column : String)
  /-- Leave out the first rows. -/
  | skip (n : UInt64)
  /-- Keep at most so many rows. -/
  | take (n : UInt64)
  /-- Keep some columns, and read the rows at another shape. -/
  | select (p : Projection) (shape : Shape)

/-- The handle that an operation makes. -/
def Extension.apply (h : Handle) : Extension → Handle
  | .filter predicate => h.filter predicate
  | .orderBy column => h.orderBy column
  | .orderByDescending column => h.orderByDescending column
  | .skip n => h.skip n
  | .take n => h.take n
  | .select p shape => h.select p shape

/-- The step of a query that an operation stands for. -/
def Extension.op : Extension → Operator
  | .filter _ => .filter
  | .orderBy _ => .orderBy
  | .orderByDescending _ => .orderByDescending
  | .skip _ => .skip
  | .take _ => .take
  | .select _ _ => .select

/-- What an operation hands to its step. -/
def Extension.arg : Extension → Expr
  | .filter predicate => predicate.toLambda
  | .orderBy column | .orderByDescending column => (Expr.col column).toLambda
  | .skip n | .take n => .rowCount n
  | .select p _ => p.toLambda

/-- No operation of a handle is a membership test. -/
theorem Extension.op_ne_contains (x : Extension) : x.op ≠ .contains := by
  cases x <;> simp [Extension.op]

/-- The step that an operation adds. -/
def Extension.link (x : Extension) : Link := ⟨x.op, [x.arg], x.op_ne_contains⟩

/-- An operation that a query ends with, and its predicate if it has one. -/
structure Ending where
  /-- What the operation asks for. -/
  op : Operator
  /-- Its predicate. -/
  predicate : Option Expr
  /-- The operation can have a predicate. -/
  isEnding : Query.takesPredicate op = true

/-- The step that a query ends with. -/
def Ending.link (l : Ending) : Link where
  op := l.op
  args := (l.predicate.map Expr.toLambda).toList
  isStep := by
    intro hop
    have hending := l.isEnding
    rw [hop] at hending
    cases hending

/-- What is done with the handle of a table: some operations, and one to end with or none. -/
structure Composition where
  /-- The operations. -/
  extensions : List Extension
  /-- The operation at the end. -/
  last : Option Ending

namespace Composition

variable (c : Composition) (d : Dialect) (e : Entity) (shape : Shape)

/-- The handle that the operations make. -/
def handle : Handle := c.extensions.foldl Extension.apply (Handle.ofEntity e shape)

/-- The query compiled. -/
def compile : Except QueryError CompiledQuery :=
  match c.last with
  | none => (c.handle e shape).build d
  | some l => (c.handle e shape).buildTerminal d l.op l.predicate

/-- The steps of the query. -/
def links : List Link := c.extensions.map Extension.link ++ c.last.toList.map Ending.link

/-- The names of columns in the predicates, selectors and projections. -/
def columnNames : List String := c.links.flatMap fun s => Expr.columnNamesOf s.args

/-- The items of the membership tests over empty collections. -/
def unreadItems : List Expr := c.links.flatMap fun s => s.args.flatMap Expr.unreadItems

/-- Whether the predicates are made with the builder's functions. -/
structure IsBuilt : Prop where
  extensions : ∀ p, .filter p ∈ c.extensions → p.IsBuilt
  last : ∀ l, c.last = some l → ∀ p, l.predicate = some p → p.IsBuilt

/-- Whether the query is compiled and the items that were not read are columns. -/
structure Sound : Prop where
  compiled : ∃ q, c.compile d e shape = .ok q
  items : ∀ item ∈ c.unreadItems, ∃ column, e.member item = .ok column

variable {c d e shape}

/-- The operations of a handle wrap its expression one after the other and leave its entity alone.
-/
theorem root_foldl (extensions : List Extension) (h : Handle) :
    (extensions.foldl Extension.apply h).root =
        (extensions.map Extension.link).foldl (fun x s => .call s.op (x :: s.args)) h.root ∧
      (extensions.foldl Extension.apply h).entity = h.entity := by
  induction extensions generalizing h with
  | nil => exact ⟨rfl, rfl⟩
  | cons o extensions ih =>
    have hstep : (o.apply h).root = .call o.link.op (h.root :: o.link.args) ∧
        (o.apply h).entity = h.entity := by
      cases o <;> exact ⟨rfl, rfl⟩
    rw [List.foldl_cons, List.map_cons, List.foldl_cons, (ih _).1, (ih _).2, hstep.1, hstep.2]
    exact ⟨rfl, rfl⟩

/-- A composition is compiled as the chain of its steps. -/
theorem compile_eq : c.compile d e shape = d.compile e (chain c.links) := by
  obtain ⟨hroot, hentity⟩ := root_foldl c.extensions (Handle.ofEntity e shape)
  unfold compile links handle
  cases c.last with
  | none =>
    rw [Handle.build, hroot, hentity, Option.toList_none, List.map_nil, List.append_nil]
    rfl
  | some l =>
    show d.compile (c.extensions.foldl Extension.apply _).entity (.call l.op (Handle.root _ :: _)) = _
    rw [hroot, hentity, chain, List.foldl_append]
    rfl

end Composition

/-! ## Steps of a composition -/

/-- The steps that the operations of a handle add. -/
inductive Link.IsComposed : Link → Prop
  | predicate {op : Operator} {p : Expr} (hop : Query.takesPredicate op = true) (hstep) :
    p.IsBuilt → IsComposed ⟨op, [p.toLambda], hstep⟩
  | bare {op : Operator} (hop : Query.takesPredicate op = true) (hstep) : IsComposed ⟨op, [], hstep⟩
  | ordering {op : Operator} (hop : op = .orderBy ∨ op = .orderByDescending) (column : String)
    (hstep) : IsComposed ⟨op, [(Expr.col column).toLambda], hstep⟩
  | count {op : Operator} (hop : op = .skip ∨ op = .take) (n : UInt64) (hstep) :
    IsComposed ⟨op, [.rowCount n], hstep⟩
  | projection (p : Projection) (hstep) : IsComposed ⟨.select, [p.toLambda], hstep⟩

/-- Whether two steps differ in nothing but what the collections in their predicates hold. -/
inductive Link.Relisted : Link → Link → Prop
  | refl (s : Link) : Relisted s s
  | predicate {op : Operator} {p p' : Expr} (hop : Query.takesPredicate op = true) (hstep) :
    p.Relisted p' → Relisted ⟨op, [p.toLambda], hstep⟩ ⟨op, [p'.toLambda], hstep⟩

/-- Whether two compositions differ in nothing but what the collections in their predicates
hold. -/
def Composition.Relisted (c c' : Composition) : Prop := List.Forall₂ Link.Relisted c.links c'.links

/-- All steps of a composition are steps that a handle can add. -/
theorem Composition.isComposed {c : Composition} (hc : c.IsBuilt) : ∀ s ∈ c.links, s.IsComposed := by
  intro s hs
  rcases List.mem_append.mp hs with hs | hs
  · obtain ⟨o, ho, rfl⟩ := List.mem_map.mp hs
    cases o with
    | filter p => exact .predicate rfl _ (hc.extensions p ho)
    | orderBy column => exact .ordering (.inl rfl) column _
    | orderByDescending column => exact .ordering (.inr rfl) column _
    | skip n => exact .count (.inl rfl) n _
    | take n => exact .count (.inr rfl) n _
    | select p => exact .projection p _
  · obtain ⟨l, hl, rfl⟩ := List.mem_map.mp hs
    have hlast := hc.last l (Option.mem_toList.mp hl)
    obtain ⟨op, predicate, hop⟩ := l
    cases predicate with
    | none => exact .bare hop _
    | some p => exact .predicate hop _ (hlast p rfl)

/-- The names in a list of columns are those of the columns. -/
theorem Expr.columnNamesOf_col (names : List String) : columnNamesOf (names.map col) = names := by
  induction names with
  | nil => rfl
  | cons name names ih => exact congrArg (name :: ·) ih

namespace Query

variable {e : Entity}

/-- A computation on all items that succeeds succeeded on each. -/
theorem exists_of_mapM_eq_ok {α β : Type} {f : α → Except QueryError β} {xs : List α} {ys : List β}
    (h : xs.mapM f = .ok ys) : ∀ x ∈ xs, ∃ y, f x = .ok y := by
  induction xs generalizing ys with
  | nil => simp
  | cons x xs ih =>
    rw [List.mapM_cons] at h
    obtain ⟨y, hy, h⟩ := bind_eq_ok.mp h
    obtain ⟨ys, hys, -⟩ := bind_eq_ok.mp h
    exact List.forall_mem_cons.mpr ⟨⟨y, hy⟩, ih hys⟩

/-- The columns of a projection that is accepted are declared. -/
theorem declared_of_projection {p : Projection} {selected : SelectList} {name : String}
    (hcolumns : e.columns ≠ []) (h : e.projection p.toLambda = .ok selected)
    (hname : name ∈ p.toLambda.columnNames) : (e.find? name).isSome = true := by
  cases p with
  | identity => cases hname
  | column column =>
    obtain ⟨_, hmember, -⟩ := bind_eq_ok.mp h
    exact isSome_find?_of_member (x := .column column) hcolumns hmember hname
  | columns names =>
    have hnames : name ∈ names := by
      rwa [← Expr.columnNamesOf_col names]
    cases names with
    | nil => cases hnames
    | cons first names =>
      obtain ⟨columns, hmembers, -⟩ := bind_eq_ok.mp h
      obtain ⟨column, hcolumn⟩ := exists_of_mapM_eq_ok hmembers _ (List.mem_map_of_mem hnames)
      exact isSome_find?_of_columnName hcolumns hcolumn

/-- A step with a predicate has a draft if and only if its predicate is accepted. -/
theorem exists_extend_predicate {op : Operator} {p : Expr} (hop : takesPredicate op = true) (hstep) :
    (∃ d, Link.extend e ⟨op, [p.toLambda], hstep⟩ Draft.empty = .ok d) ↔ Accepts e true p := by
  have hpredicate : Link.predicate? ⟨op, [p.toLambda], hstep⟩ = some p.toLambda := if_pos hop
  rw [exists_extend_iff hpredicate, exists_visit_iff, accepts_toLambda]

/-- A name in a step that has a draft is that of a declared column, or it stands in an item that was
not read. -/
theorem declared_of_extend {s : Link} (hcolumns : e.columns ≠ []) (hs : s.IsComposed)
    (h : ∃ d, s.extend e Draft.empty = .ok d) {name : String}
    (hname : name ∈ Expr.columnNamesOf s.args) :
    (e.find? name).isSome = true ∨
      ∃ item ∈ s.args.flatMap Expr.unreadItems, name ∈ item.columnNames := by
  cases hs with
  | @predicate op p hop hstep hp =>
    have haccepts := (exists_extend_predicate hop hstep).mp h
    rw [Expr.columnNamesOf, Expr.columnNamesOf, List.append_nil] at hname
    refine (declared_of_accepts hcolumns hp haccepts hname).imp_right ?_
    rintro ⟨item, hitem, hname⟩
    exact ⟨item, List.mem_append_left _ hitem, hname⟩
  | bare => cases hname
  | ordering hop column =>
    obtain rfl : name = column := by
      simpa [Expr.columnNamesOf, Expr.toLambda, Expr.col, Expr.columnNames] using hname
    obtain ⟨d, h⟩ := h
    rcases hop with rfl | rfl
    all_goals
      obtain ⟨_, hmember, -⟩ := bind_eq_ok.mp h
      exact .inl (isSome_find?_of_columnName hcolumns hmember)
  | count => cases hname
  | projection p =>
    obtain ⟨d, h⟩ := h
    obtain ⟨selected, hselected, -⟩ := bind_eq_ok.mp h
    rw [Expr.columnNamesOf, Expr.columnNamesOf, List.append_nil] at hname
    exact .inl (declared_of_projection hcolumns hselected hname)

end Query

/-! ## Collections with other items -/

/-- A property of all items passes over to the items related to them. -/
theorem forall_mem_of_forall₂ {α β : Type} {R : α → β → Prop} {P : α → Prop} {Q : β → Prop}
    {as : List α} {bs : List β} (h : List.Forall₂ R as bs) (hR : ∀ a b, R a b → P a → Q b)
    (has : ∀ a ∈ as, P a) : ∀ b ∈ bs, Q b := by
  induction h with
  | nil => simp
  | cons hab _ ih =>
    obtain ⟨ha, has⟩ := List.forall_mem_cons.mp has
    exact List.forall_mem_cons.mpr ⟨hR _ _ hab ha, ih has⟩

/-- What a draft says about rows and columns. -/
def Draft.rows (d : Draft) :
    Option UInt64 × Option UInt64 × Option OrderBy × ResultMode × Option SelectList :=
  (d.skip, d.take, d.order, d.mode, d.selected)

/-- Drafts that say the same about rows have the same page. -/
theorem Draft.page_of_rows {d d' : Draft} (h : d.rows = d'.rows) : d.page = d'.page := by
  obtain ⟨_, _, _, _, _, _, _, _, _⟩ := d
  cases h
  rfl

namespace Link

variable {e : Entity} {s s' : Link}

/-- The other step differs from this one as little as this one from the other. -/
theorem Relisted.symm (h : Relisted s s') : Relisted s' s := by
  cases h with
  | refl => exact .refl s
  | predicate hop hstep hp => exact .predicate hop hstep hp.symm

/-- The predicates of the steps that handles add are predicates. -/
theorem IsComposed.isPredicate (h : s.IsComposed) : ∀ p ∈ s.predicate?, p.isPredicate = true := by
  intro p hp
  cases h with
  | @predicate op q hop hstep hq =>
    obtain rfl : q.toLambda = p := Option.some.inj ((if_pos hop).symm.trans hp)
    exact hq.isPredicate
  | bare hop =>
    cases (if_pos hop).symm.trans hp
  | ordering hop => rcases hop with rfl | rfl <;> cases hp
  | count hop => rcases hop with rfl | rfl <;> cases hp
  | projection => cases hp

/-- Other items in a collection leave a predicate a predicate. -/
theorem Relisted.isPredicate (h : Relisted s s')
    (hs : ∀ p ∈ s.predicate?, p.isPredicate = true) : ∀ p ∈ s'.predicate?, p.isPredicate = true := by
  cases h with
  | refl => exact hs
  | @predicate op p p' hop hstep hpp =>
    intro q hq
    obtain rfl : p'.toLambda = q := Option.some.inj ((if_pos hop).symm.trans hq)
    have hp := hs p.toLambda (if_pos hop)
    exact hpp.isPredicate.trans hp

/-- The items of a collection say nothing about rows and columns. -/
theorem Relisted.said {d d' : Draft} (h : Relisted s s') (hsaid : Query.Says e s d d') :
    Query.Says e s' d d' := by
  cases h with
  | refl => exact hsaid
  | @predicate op p p' hop hstep hpp =>
    cases op <;>
      first
      | exact ⟨hsaid.skip, hsaid.take, hsaid.order, hsaid.mode, hsaid.selected⟩
      | cases hop

/-- Whether a step has a draft and the items that were not read are columns. -/
structure Sound (e : Entity) (s : Link) : Prop where
  extended : ∃ d, s.extend e Draft.empty = .ok d
  items : ∀ item ∈ s.args.flatMap Expr.unreadItems, ∃ column, e.member item = .ok column

/-- Other items in a collection leave a step sound. -/
theorem Sound.relisted (h : Relisted s s') (hs : Sound e s) : Sound e s' := by
  cases h with
  | refl => exact hs
  | @predicate op p p' hop hstep hpp =>
    have hp : Query.Sound e true p := by
      refine ⟨(Query.exists_extend_predicate hop hstep).mp hs.extended, fun item hitem => ?_⟩
      exact hs.items item (List.mem_append_left _ hitem)
    have hp' := hp.relisted hpp
    refine ⟨(Query.exists_extend_predicate hop hstep).mpr hp'.accepts, fun item hitem => ?_⟩
    refine hp'.items item ?_
    simpa [Expr.toLambda, Expr.unreadItems] using hitem

end Link

namespace Query

variable {e : Entity} {steps steps' : List Link} {d d' : Draft}

/-- Two drafts of one step over equal rows have equal rows again. -/
theorem rows_of_step {s : Link} {d₁ d₁' : Draft} (h : Says e s d d₁) (h' : Says e s d' d₁')
    (hrows : d.rows = d'.rows) : d₁.rows = d₁'.rows := by
  simp only [Draft.rows, Prod.mk.injEq] at hrows ⊢
  rw [h.skip, h.take, h.order, h.mode, h.selected, h'.skip, h'.take, h'.order, h'.mode, h'.selected,
    hrows.1, hrows.2.1, hrows.2.2.1, hrows.2.2.2.1, hrows.2.2.2.2]
  simp

/-- Chains that differ in nothing but what collections hold say the same about rows and columns. -/
theorem rows_foldlM {d₁ d₁' : Draft} (hsteps : List.Forall₂ Link.Relisted steps steps')
    (hp : ∀ s ∈ steps, ∀ p ∈ s.predicate?, p.isPredicate = true) (hrows : d.rows = d'.rows)
    (h : steps.foldlM (fun d s => s.extend e d) d = .ok d₁)
    (h' : steps'.foldlM (fun d s => s.extend e d) d' = .ok d₁') : d₁.rows = d₁'.rows := by
  induction hsteps generalizing d d' with
  | nil =>
    cases h
    cases h'
    exact hrows
  | @cons s s' steps steps' hs hsteps ih =>
    rw [List.foldlM_cons] at h h'
    obtain ⟨d₂, hextend, h⟩ := bind_eq_ok.mp h
    obtain ⟨d₂', hextend', h'⟩ := bind_eq_ok.mp h'
    obtain ⟨hpredicate, hp⟩ := List.forall_mem_cons.mp hp
    have hsaid := hs.said (says_extend hpredicate hextend)
    have hsaid' := says_extend (hs.isPredicate hpredicate) hextend'
    exact ih hp (rows_of_step hsaid hsaid' hrows) h h'

end Query

/-- A query is compiled if it has a draft and the dialect has a form for its page. -/
theorem exists_compile_iff {d : Dialect} {e : Entity} {steps : List Link} :
    (∃ q, d.compile e (chain steps) = .ok q) ↔
      ∃ draft, steps.foldlM (fun d s => s.extend e d) Draft.empty = .ok draft ∧
        ∃ form, d.pageForm draft.page = .ok form := by
  simp only [compile_eq_ok, Query.draft, Query.visit_chain, Dialect.selection, bind_eq_ok,
    Except.ok.injEq]
  constructor
  · rintro ⟨_, draft, hdraft, _, ⟨form, hform, -⟩, -⟩
    exact ⟨draft, hdraft, form, hform⟩
  · rintro ⟨draft, hdraft, form, hform⟩
    exact ⟨_, draft, hdraft, _, ⟨form, hform, rfl⟩, rfl⟩

namespace Composition

variable {c c' : Composition} {d : Dialect} {e : Entity} {shape : Shape}

/-- Each step of a query that is compiled can be compiled alone. -/
theorem extend_of_compile (h : ∃ q, c.compile d e shape = .ok q) :
    ∀ s ∈ c.links, ∃ draft, s.extend e Draft.empty = .ok draft := by
  rw [compile_eq, exists_compile_iff] at h
  obtain ⟨draft, hdraft, -⟩ := h
  exact Query.exists_foldlM_iff.mp ⟨draft, hdraft⟩

/-- A name in a query that is compiled is that of a declared column, or it stands in an item that was
not read. -/
theorem declared_of_compile (hcolumns : e.columns ≠ []) (hc : c.IsBuilt)
    (h : ∃ q, c.compile d e shape = .ok q) {name : String} (hname : name ∈ c.columnNames) :
    (e.find? name).isSome = true ∨ ∃ item ∈ c.unreadItems, name ∈ item.columnNames := by
  obtain ⟨s, hs, hname⟩ := List.mem_flatMap.mp hname
  have hextend := extend_of_compile h s hs
  refine (Query.declared_of_extend hcolumns (isComposed hc s hs) hextend hname).imp_right ?_
  rintro ⟨item, hitem, hname⟩
  exact ⟨item, List.mem_flatMap.mpr ⟨s, hs, hitem⟩, hname⟩

/-- An item is a part of the query. -/
theorem columnNames_of_mem_unreadItems {item : Expr} (h : item ∈ c.unreadItems) :
    item.columnNames ⊆ c.columnNames := by
  intro name hname
  obtain ⟨s, hs, h⟩ := List.mem_flatMap.mp h
  obtain ⟨x, hx, h⟩ := List.mem_flatMap.mp h
  refine List.mem_flatMap.mpr ⟨s, hs, ?_⟩
  have hpart := Expr.columnNames_of_mem_unreadItems h hname
  generalize s.args = args at hx
  induction args with
  | nil => cases hx
  | cons y args ih =>
    rcases List.mem_cons.mp hx with rfl | hx
    · exact List.mem_append_left _ hpart
    · exact List.mem_append_right _ (ih hx)

/-- A composition with other items in its collections is as sound. -/
theorem Sound.relisted (hc : ∀ s ∈ c.links, ∀ p ∈ s.predicate?, p.isPredicate = true)
    (hrelisted : c.Relisted c') (h : c.Sound d e shape) : c'.Sound d e shape := by
  have hextend := extend_of_compile h.compiled
  have hsound : ∀ s' ∈ c'.links, s'.Sound e := by
    refine forall_mem_of_forall₂ hrelisted (fun _ _ => Link.Sound.relisted) fun s hs => ?_
    exact ⟨hextend s hs, fun item hitem => h.items item (List.mem_flatMap.mpr ⟨s, hs, hitem⟩)⟩
  obtain ⟨draft', hdraft'⟩ :=
    Query.exists_foldlM_iff (d := Draft.empty).mpr fun s' hs' => (hsound s' hs').extended
  have hcompiled := h.compiled
  rw [compile_eq, exists_compile_iff] at hcompiled
  obtain ⟨draft, hdraft, form, hform⟩ := hcompiled
  have hrows := Query.rows_foldlM hrelisted hc rfl hdraft hdraft'
  constructor
  · rw [compile_eq, exists_compile_iff]
    exact ⟨draft', hdraft', form, Draft.page_of_rows hrows ▸ hform⟩
  · intro item hitem
    obtain ⟨s', hs', hitem⟩ := List.mem_flatMap.mp hitem
    exact (hsound s' hs').items item hitem

end Composition

/-- A query that handles compose names declared columns only, if it is compiled and so do the items
of the membership tests over empty collections: these are not read. And where they are columns,
what the collections hold makes no difference to whether the query is compiled. -/
theorem compile_composition (d : Dialect) (e : Entity) (shape : Shape) (c : Composition)
    (hcolumns : e.columns ≠ []) (hc : c.IsBuilt) :
    (∀ q, c.compile d e shape = .ok q →
      ((∀ name ∈ c.columnNames, (e.find? name).isSome = true) ↔
        ∀ item ∈ c.unreadItems, ∀ name ∈ item.columnNames, (e.find? name).isSome = true)) ∧
    ∀ c' : Composition, c.Relisted c' → (c.Sound d e shape ↔ c'.Sound d e shape) := by
  refine ⟨fun q hq => ⟨fun h item hitem name hname => ?_, fun h name hname => ?_⟩, ?_⟩
  · exact h name (Composition.columnNames_of_mem_unreadItems hitem hname)
  · rcases Composition.declared_of_compile hcolumns hc ⟨q, hq⟩ hname with hfind | hread
    · exact hfind
    · obtain ⟨item, hitem, hname⟩ := hread
      exact h item hitem name hname
  · intro c' hrelisted
    have hpredicates : ∀ s ∈ c.links, ∀ p ∈ s.predicate?, p.isPredicate = true :=
      fun s hs => (Composition.isComposed hc s hs).isPredicate
    have hpredicates' : ∀ s ∈ c'.links, ∀ p ∈ s.predicate?, p.isPredicate = true :=
      forall_mem_of_forall₂ hrelisted (fun _ _ => Link.Relisted.isPredicate) hpredicates
    have hback : c'.Relisted c := hrelisted.flip.imp fun _ _ => Link.Relisted.symm
    exact ⟨.relisted hpredicates hrelisted, .relisted hpredicates' hback⟩

/-- The names of the users in whose row some values are listed for a column. -/
def usersListed (column : String) (vs : List Value) : Composition where
  extensions :=
    [.filter ((Expr.col column).isIn (.captured (.ofValue (.list vs)))), .orderBy "id",
      .select (.column "name") Sample.user]
  last := none

/-- The users of a list are asked for with the builder's functions. -/
theorem isBuilt_usersListed (column : String) (vs : List Value) : (usersListed column vs).IsBuilt where
  extensions p hp := by
    obtain rfl : p = (Expr.col column).isIn (.captured (.ofValue (.list vs))) := by
      simpa [usersListed] using hp
    exact .isIn (.column column) (.captured _)
  last := nofun

/-- Asking for the users of two lists makes compositions that differ in the lists only. -/
theorem relisted_usersListed (column : String) {vs vs' : List Value}
    (hvs : ∀ v ∈ vs, v = .null ∨ v.isScalar = true)
    (hvs' : ∀ v ∈ vs', v = .null ∨ v.isScalar = true) :
    (usersListed column vs).Relisted (usersListed column vs') :=
  .cons (.predicate rfl _ (.isIn rfl hvs rfl hvs')) (.cons (.refl _) (.cons (.refl _) .nil))

/-- An empty list of ages and one with two: the query over the empty one does not read the column,
which exists. -/
theorem compile_composition_ages :
    Sample.users.columns ≠ [] ∧ (usersListed "age" []).IsBuilt ∧
      (usersListed "age" []).Relisted (usersListed "age" [.int 18, .int 81]) ∧
      (usersListed "age" []).unreadItems = [.col "age"] ∧
      (∀ name ∈ (usersListed "age" []).columnNames, (Sample.users.find? name).isSome = true) ∧
      (usersListed "age" [.int 18, .int 81]).Sound .postgres Sample.users Sample.user := by
  have hcolumns : Sample.users.columns ≠ [] := by decide
  have hrelisted : (usersListed "age" []).Relisted (usersListed "age" [.int 18, .int 81]) :=
    relisted_usersListed "age" (by simp) (by simp [Value.isScalar])
  obtain ⟨hnames, hsound⟩ := compile_composition .postgres Sample.users Sample.user (usersListed "age" [])
    hcolumns (isBuilt_usersListed "age" [])
  have hcompiled : (usersListed "age" []).Sound .postgres Sample.users Sample.user := by
    refine ⟨⟨_, rfl⟩, ?_⟩
    rintro item hitem
    obtain rfl := List.mem_singleton.mp hitem
    exact ⟨"age", rfl⟩
  obtain ⟨q, hq⟩ := hcompiled.compiled
  refine ⟨hcolumns, isBuilt_usersListed "age" [], hrelisted, rfl, (hnames q hq).mpr ?_,
    (hsound _ hrelisted).mp hcompiled⟩
  intro item hitem name hname
  obtain rfl := List.mem_singleton.mp hitem
  obtain rfl := List.mem_singleton.mp hname
  rfl

/-- A column that the table does not have is accepted as long as nothing is listed. -/
theorem undeclared_usersListed :
    Sample.users.columns ≠ [] ∧ (usersListed "nope" []).IsBuilt ∧
      (∃ q, (usersListed "nope" []).compile .sqlServer Sample.users Sample.user = .ok q) ∧
      "nope" ∈ (usersListed "nope" []).columnNames ∧ Sample.users.find? "nope" = none ∧
      (usersListed "nope" [.int 1]).compile .sqlServer Sample.users Sample.user =
        .error (.unknownColumn "users" "nope") :=
  ⟨by decide, isBuilt_usersListed "nope" [], ⟨_, rfl⟩, by decide, by decide +kernel, by with_unfolding_all rfl⟩

end SqlCompose
