import SqlCompose.Proofs.Dialect.Token
import SqlCompose.Proofs.Query.Walk
import SqlCompose.Query.Select

/-!
# Selections as trees

The text of a query is that of a selection: which rows it reads, what it lists of them, their
order, and which part of them is kept. `Dialect.selection` builds the selection of a draft, and
`Dialect.compile_eq_ok` says that a compiled query is its text, with the values of the draft as
they are bound. What a selection means can then be said without its text.
-/

namespace SqlCompose

/-! ## Selections -/

/-- What a selection lists. -/
inductive Item where
  /-- All columns. -/
  | star
  /-- The number of rows. -/
  | count
  /-- A number. -/
  | literal (n : Nat)
  /-- A column. -/
  | column (name : String)
deriving DecidableEq, Repr

/-- Where a selection reads its rows. -/
inductive Source where
  /-- A table. -/
  | table
  /-- A table with its rows numbered in an order; the numbers in a range are kept. -/
  | numbered (order : OrderBy) (range : NumberRange)
deriving DecidableEq, Repr

/-- Which part of its ordered rows a selection keeps. -/
inductive Slice where
  /-- All of them. -/
  | all
  /-- The rows after some, and possibly only so many of those. -/
  | offset (skip : Nat) (fetch : Option Nat)
  /-- So many rows after others. -/
  | limit (skip take : Nat)
deriving DecidableEq, Repr

/-- A selection from a table. -/
structure Selection where
  /-- How many of the first rows are kept. -/
  top : Option Nat
  /-- What is listed. -/
  items : List Item
  /-- Where the rows are read. -/
  source : Source
  /-- The name of the table. -/
  table : String
  /-- The text of the condition; it is empty if all rows are wanted. -/
  condition : String
  /-- The ordering of the rows. -/
  order : Option OrderBy
  /-- The part of the rows that is kept. -/
  slice : Slice
deriving DecidableEq, Repr

/-! ## Text -/

/-- A number. -/
def Token.number (n : Nat) : Token := .word (toString n)

/-- The tokens of an item. -/
def Item.tokens : Item → List Token
  | .star => [.word "*"]
  | .count => [.word "COUNT(*)"]
  | .literal n => [.number n]
  | .column name => [.ident name]

/-- The tokens of an ordering. -/
def OrderBy.tokens (o : OrderBy) : List Token :=
  .word "ORDER BY " :: .ident o.column :: if o.descending then [.word " desc"] else []

/-- The tokens of an ordering behind other text, if there is one. -/
def orderTokens : Option OrderBy → List Token
  | some o => .word " " :: o.tokens
  | none => []

/-- The tokens of a range of row numbers, behind their column. -/
def NumberRange.tokens : NumberRange → List Token
  | .between first last =>
    [.word " BETWEEN ", .number first.toNat, .word " AND ", .number last.toNat]
  | .beyond last => [.word " > ", .number last.toNat]

/-- The tokens of a source in front of its condition. -/
def Source.before (table : String) : Source → List Token
  | .table => [.word " FROM ", .ident table]
  | .numbered order _ =>
    .word " FROM (SELECT *, ROW_NUMBER() OVER (" :: order.tokens ++
      [.word ") AS ", .ident rowNumberName, .word " FROM ", .ident table]

/-- The tokens of a source behind its condition. -/
def Source.after : Source → List Token
  | .table => []
  | .numbered _ range =>
    [.word ") AS ", .ident pagedName, .word " WHERE ", .ident rowNumberName] ++ range.tokens

/-- The tokens of the part of the rows that is kept. -/
def Slice.tokens : Slice → List Token
  | .all => []
  | .offset skip none => [.word " OFFSET ", .number skip, .word " ROWS", .word ";"]
  | .offset skip (some n) =>
    [.word " OFFSET ", .number skip, .word " ROWS", .word " FETCH NEXT ", .number n,
      .word " ROWS ONLY", .word ";"]
  | .limit skip take => [.word " limit ", .number skip, .word ",", .number take]

/-- A condition with its keyword, or nothing. -/
def whereText (condition : String) : String :=
  if condition.isEmpty then "" else " WHERE " ++ condition

namespace Selection

variable (s : Selection)

/-- The tokens in front of the condition. -/
def before : List Token :=
  (match s.top with
    | some n => [.word "SELECT TOP (", .number n, .word ") "]
    | none => [.word "SELECT "]) ++
    (commaSeparated (s.items.map Item.tokens) ++ s.source.before s.table)

/-- The tokens behind the condition. -/
def after : List Token :=
  s.source.after ++
    (orderTokens s.order ++ s.slice.tokens)

/-- The text of a selection. -/
def write (d : Dialect) : String := d.write s.before ++ whereText s.condition ++ d.write s.after

end Selection

/-! ## The selection of a draft -/

/-- The items of a projection. -/
def SelectList.items : SelectList → List Item
  | .all => [.star]
  | .nothing => [.literal 0]
  | .columns names => names.map .column

/-- The rows that a draft answers with. -/
def Draft.page (d : Draft) : Page :=
  match d.mode with
  | .count => .all
  | .any =>
    let skip := d.skip.filter fun n => decide (0 < n)
    ⟨skip, some 1, if skip.isSome then d.order else none⟩
  | .all | .project => ⟨d.skip, d.take, d.order⟩

/-- The items that a draft lists. -/
def Draft.items (d : Draft) : List Item :=
  match d.mode with
  | .all => [.star]
  | .count => [.count]
  | .any => [.literal 1]
  | .project => (d.selected.map SelectList.items).getD [.star]

/-- What a selection from numbered rows lists: the numbers are left out if the columns of the table
are known. -/
def Entity.withoutNumbers (e : Entity) (items : List Item) : List Item :=
  if items = [.star] ∧ e.columns ≠ [] then e.columns.map fun c => .column c.name else items

/-- The selection in a form. -/
def PageForm.selection (e : Entity) (items : List Item) (condition : String) : PageForm → Selection
  | .plain order => ⟨none, items, .table, e.table, condition, order, .all⟩
  | .top n order => ⟨some n.toNat, items, .table, e.table, condition, order, .all⟩
  | .offset skip take order =>
    ⟨none, items, .table, e.table, condition, order, .offset skip.toNat (take.map UInt64.toNat)⟩
  | .limit skip take order =>
    ⟨none, items, .table, e.table, condition, order, .limit skip.toNat take.toNat⟩
  | .numbered range order =>
    ⟨none, e.withoutNumbers items, .numbered order range, e.table, condition,
      some ⟨rowNumberName, false⟩, .all⟩

namespace Dialect

/-- The text of the condition of a draft. -/
def conditionOf (d : Dialect) (draft : Draft) : String := NullTest.finish (d.write draft.tokens)

/-- The selection of a draft. -/
def selection (d : Dialect) (e : Entity) (draft : Draft) : Except QueryError Selection := do
  .ok ((← d.pageForm draft.page).selection e draft.items (d.conditionOf draft))

variable (d : Dialect)

@[simp] theorem write_nil : d.write [] = "" := rfl

@[simp] theorem write_cons (t : Token) (tokens : List Token) :
    d.write (t :: tokens) = d.tokenText t ++ d.write tokens := by simp [write]

/-- The text of tokens side by side is that of each, in order. -/
@[simp] theorem write_append (a b : List Token) : d.write (a ++ b) = d.write a ++ d.write b := by
  simp [write, List.map_append]

/-- What a draft lists is all columns, the number of rows, a constant, or some columns. -/
theorem items_cases (draft : Draft) : draft.items = [.star] ∨ draft.items = [.count] ∨
    (∃ one : Bool, draft.items = [.literal one.toNat]) ∨
      ∃ names : List String, draft.items = names.map .column := by
  obtain ⟨_, _, _, _, _, _, _, mode, selected⟩ := draft
  cases mode with
  | all => exact .inl rfl
  | count => exact .inr (.inl rfl)
  | any => exact .inr (.inr (.inl ⟨true, rfl⟩))
  | project =>
    match selected with
    | none | some .all => exact .inl rfl
    | some .nothing => exact .inr (.inr (.inl ⟨false, rfl⟩))
    | some (.columns names) => exact .inr (.inr (.inr ⟨names, rfl⟩))

/-- The text of items. -/
def writeItems (items : List Item) : String := d.write (commaSeparated (items.map Item.tokens))

/-- Columns are not written like the item for all of them. -/
theorem writeItems_columns_ne_star (names : List String) :
    d.writeItems (names.map .column) ≠ "*" := by
  intro h
  have htext : (d.writeItems (names.map .column)).toList = ['*'] := by rw [h]; rfl
  have hopen : d.openQuote ≠ '*' := by cases d <;> decide
  match names with
  | [] => simp [writeItems, commaSeparated] at htext
  | name :: names =>
    cases names <;>
      simp [writeItems, commaSeparated, Item.tokens, tokenText, quoteChars, List.intercalate_cons_cons,
        hopen] at htext

/-- What is listed reads as the star only if all columns are listed. -/
theorem writeItems_eq_star (draft : Draft) :
    d.writeItems draft.items = "*" ↔ draft.items = [.star] := by
  constructor
  · intro h
    rcases items_cases draft with hi | hi | ⟨n, hi⟩ | ⟨names, hi⟩ <;> rw [hi] at h ⊢
    · exact absurd h (by cases d <;> decide)
    · exact absurd h (by cases n <;> cases d <;> decide)
    · exact absurd h (d.writeItems_columns_ne_star names)
  · intro h
    rw [h]
    rfl

end Dialect

/-- A selection has the condition of its draft. -/
theorem selection_condition {d : Dialect} {e : Entity} {draft : Draft} {s : Selection}
    (h : d.selection e draft = .ok s) : s.condition = d.conditionOf draft := by
  obtain ⟨form, -, h⟩ := bind_eq_ok.mp h
  cases h
  cases form <;> rfl

/-! ## Forms and their text -/

/-- An ordering by a quoted column. -/
def OrderBy.quoted (d : Dialect) (o : OrderBy) : OrderBy := ⟨d.quote o.column, o.descending⟩

/-- A page with its ordering by a quoted column. -/
def Page.quoted (d : Dialect) (p : Page) : Page := { p with order := p.order.map (·.quoted d) }

/-- A form with its ordering by a quoted column. -/
def PageForm.quoted (d : Dialect) : PageForm → PageForm
  | .plain order => .plain (order.map (·.quoted d))
  | .top n order => .top n (order.map (·.quoted d))
  | .offset skip take order => .offset skip take (order.map (·.quoted d))
  | .limit skip take order => .limit skip take (order.map (·.quoted d))
  | .numbered range order => .numbered range (order.quoted d)

variable {d : Dialect}

/-- The form of a page does not depend on how the ordering is written. -/
theorem pageForm_quoted (p : Page) :
    d.pageForm (p.quoted d) = (d.pageForm p).map (·.quoted d) := by
  obtain ⟨skip, take, order⟩ := p
  cases d <;> cases skip <;> cases take <;> cases order <;>
    simp [Dialect.pageForm, Dialect.paging, Page.quoted, Page.isPaged, Except.map, PageForm.quoted] <;>
    split <;> simp_all

/-- The page of a plan is the page of its draft, with the column of the ordering quoted. -/
theorem page_ofDraft (draft : Draft) : Page.ofPlan (d.ofDraft draft) = draft.page.quoted d := by
  obtain ⟨_, _, _, _, skip, take, order, mode, _⟩ := draft
  cases mode <;> cases order <;> cases skip <;>
    simp [Page.ofPlan, Dialect.ofDraft, Draft.page, Page.quoted, Page.all, OrderBy.quoted,
      Option.filter]

/-- An ordering by a quoted column reads as its tokens. -/
theorem write_quoted (o : OrderBy) : (o.quoted d).write = d.write o.tokens := by
  obtain ⟨column, descending⟩ := o
  cases descending <;>
    simp [OrderBy.write, OrderBy.quoted, OrderBy.tokens, Dialect.tokenText, String.append_assoc]

/-- The clause of an ordering by a quoted column reads as its tokens. -/
theorem orderClause_quoted (order : Option OrderBy) :
    orderClause (order.map (·.quoted d)) = d.write (orderTokens order) := by
  cases order with
  | none => rfl
  | some o => simp [orderClause, write_quoted, orderTokens, Dialect.tokenText]

/-- A form is written as its selection. -/
theorem write_selection (e : Entity) (draft : Draft) (condition : String) (form : PageForm) :
    (form.quoted d).write d e ⟨d.writeItems draft.items, d.quote e.table, whereText condition⟩ =
      (form.selection e draft.items condition).write d := by
  cases form with
  | plain order | top n order | limit skip take order =>
    simp only [PageForm.write.eq_def, PageForm.quoted, PageForm.selection, Selection.write,
      Selection.before, Selection.after, SelectParts.tail, Source.before, Source.after,
      Slice.tokens, Dialect.writeItems, Dialect.tokenText, Token.number, orderClause_quoted,
      Dialect.write_append, Dialect.write_cons, Dialect.write_nil, String.append_empty,
      String.empty_append, String.append_assoc]
  | offset skip take order =>
    cases take <;>
      simp only [PageForm.write.eq_def, PageForm.quoted, PageForm.selection, Selection.write,
        Selection.before, Selection.after, SelectParts.tail, Source.before, Source.after,
        Slice.tokens, Dialect.writeItems, Dialect.tokenText, Token.number, orderClause_quoted,
        Dialect.write_append, Dialect.write_cons, Dialect.write_nil, String.append_empty,
        String.empty_append, String.append_assoc, Option.map_none, Option.map_some]
  | numbered range order =>
    have houter : PageForm.outerList d e (d.writeItems draft.items) =
        d.writeItems (e.withoutNumbers draft.items) := by
      unfold PageForm.outerList Entity.withoutNumbers
      by_cases hc : draft.items = [.star] ∧ e.columns ≠ []
      · have hstar := (d.writeItems_eq_star draft).mpr hc.1
        rw [if_pos hc, if_pos (by simp [hstar, hc.2])]
        simp [Dialect.writeItems, Function.comp_def, Item.tokens]
      · rw [if_neg hc, if_neg]
        simpa [d.writeItems_eq_star draft] using hc
    have hrange : range.write (d.quote rowNumberName) =
        d.write (.ident rowNumberName :: range.tokens) := by
      cases range <;>
        simp only [NumberRange.write, NumberRange.tokens, Dialect.write_cons, Dialect.write_nil,
          Dialect.tokenText, Token.number, String.append_assoc, String.append_empty]
    have hwords : " ORDER BY " = " " ++ "ORDER BY " := by decide
    rw [Dialect.writeItems, Dialect.writeItems] at houter
    simp only [PageForm.write.eq_def, PageForm.quoted, PageForm.selection, Selection.write,
      Selection.before, Selection.after, Source.before, Source.after, Slice.tokens, houter,
      hrange, hwords, write_quoted, Dialect.writeItems, Dialect.tokenText, orderTokens,
      OrderBy.tokens, Dialect.write_append, Dialect.write_cons, Dialect.write_nil,
      String.append_empty, String.append_assoc, Bool.false_eq_true, if_false]

/-! ## Compiled queries -/

/-- The list of a plan is the items of its draft. -/
theorem listOf_ofDraft (draft : Draft) :
    Dialect.listOf (d.ofDraft draft) = d.writeItems draft.items := by
  obtain ⟨_, _, _, _, _, _, _, mode, selected⟩ := draft
  cases mode with
  | all | count => rfl
  | any => cases d <;> rfl
  | project =>
    match selected with
    | none | some .all => rfl
    | some .nothing => rfl
    | some (.columns names) =>
      simp [Dialect.listOf, Dialect.ofDraft, Dialect.selectList, Dialect.writeItems, Draft.items,
        SelectList.items, Function.comp_def, Item.tokens]

/-- Rendering the plan of a draft writes the draft's selection. -/
theorem renderSelect_ofDraft (e : Entity) (draft : Draft) :
    d.renderSelect e (d.ofDraft draft) = (do
      let s ← d.selection e draft
      .ok ⟨s.write d, draft.values.map d.param, draft.mode, d⟩) := by
  rw [Dialect.renderSelect, page_ofDraft, pageForm_quoted, Dialect.selection]
  cases d.pageForm draft.page with
  | error fault => rfl
  | ok form =>
    have htext := write_selection (d := d) e draft (d.conditionOf draft) form
    rw [← listOf_ofDraft] at htext
    exact congrArg (fun sql : String => Except.ok (CompiledQuery.mk sql _ _ _)) htext

/-- A query is compiled to the text of the selection of its draft, with the values of the draft. -/
theorem compile_eq (e : Entity) (root : Expr) :
    d.compile e root = (do
      let draft ← Query.draft e root
      let s ← d.selection e draft
      .ok ⟨s.write d, draft.values.map d.param, draft.mode, d⟩) := by
  simp only [Dialect.compile, Dialect.planQuery, bind_map, renderSelect_ofDraft]

/-- A query is compiled just when it has a draft with a selection, and the text is that of the
selection. -/
theorem compile_eq_ok {e : Entity} {root : Expr} {q : CompiledQuery} :
    d.compile e root = .ok q ↔ ∃ draft, Query.draft e root = .ok draft ∧
      ∃ s, d.selection e draft = .ok s ∧
        ⟨s.write d, draft.values.map d.param, draft.mode, d⟩ = q := by
  simp only [compile_eq, bind_eq_ok, Except.ok.injEq]

/-- The query for the rows of a predicate has the condition of the predicate. -/
theorem Query.visit_selection {e : Entity} (predicate : Expr) :
    Query.visit e false (.call .filter [.source, predicate]) Draft.empty =
      (Query.visit e true predicate Draft.empty).map (·.setNested true) := by
  rw [Query.visit_filter false rfl, Query.visit_source]
  show (Query.visit e true predicate Draft.empty >>= fun d₂ => .ok (d₂.setNested true)) = _
  cases Query.visit e true predicate Draft.empty <;> rfl

end SqlCompose
