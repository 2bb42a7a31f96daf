import SqlCompose.Proofs.Paging.Strategies

/-!
# Compiled queries answer with their page

`compile_pages` is what a query means: unless an ordering is missing, its statement is the text of
a selection from the table of its entity, which answers with the recorded page of the matching rows,
with whether there is a row behind those that are skipped, or with the number of rows. Only the query
for no rows in an order has no answer in SQL Server, where it is written with a `FETCH` of no rows.
All this holds of every expression, hence of the query of every handle.
-/

namespace SqlCompose

/-! ## What is recorded -/

namespace Draft

/-- The part of ordered rows that a draft asks for. -/
def keep {α : Type} (d : Draft) (rows : List α) : List α :=
  match d.take with
  | none => rows.drop d.skipped
  | some n => (rows.drop d.skipped).take n.toNat

/-- What a draft lists of a row: the projected columns, or the declared ones. -/
def row (d : Draft) (e : Entity) (r : Row) : List Entry :=
  match d.mode, d.selected with
  | .project, some (.columns names) => names.map r
  | .project, some .nothing => [.number 0]
  | _, _ => e.columns.map fun c => r c.name

/-- Whether a dialect writes a draft with a `FETCH` of no rows: SQL Server does so for no rows of a
table in an order. -/
def FetchesNothing (d : Dialect) (draft : Draft) : Prop :=
  d = .sqlServer ∧ (draft.mode = .all ∨ draft.mode = .project) ∧ draft.order.isSome = true ∧
    draft.take = some 0

end Draft

/-- Whether a selection answers with what a draft records of the table of an entity. -/
structure Selection.AnswersFor (s : Selection) (d : Dialect) (e : Entity) (draft : Draft) : Prop where
  /-- Rows or columns of rows are those of the page, in the recorded order. -/
  page : draft.mode = .all ∨ draft.mode = .project → ∀ db result, s.Answers d e db result ↔
    ∃ rows, db.Arranged draft.order (db.matching e.table s.condition) rows ∧
      result = (draft.keep rows).map (draft.row e)
  /-- A test for existence finds a row if there are more than are skipped. -/
  any : draft.mode = .any → ∀ db, (∃ result, s.Answers d e db result) ∧
    ∀ result, s.Answers d e db result →
      (result ≠ [] ↔ draft.skipped < (db.matching e.table s.condition).length)
  /-- A count is over all matching rows. -/
  count : draft.mode = .count → ∀ db result, s.Answers d e db result ↔
    result = [[.number (db.matching e.table s.condition).length]]

/-- Whether the bounds on row numbers in a selection are those of a draft, without an overflow. -/
def Selection.IsBounded (s : Selection) (draft : Draft) : Prop :=
  ∀ order first last, s.source = .numbered order (.between first last) →
    first.toNat = draft.skipped + 1 ∧
      ∃ n, draft.page.take = some n ∧ last.toNat = draft.skipped + n.toNat

/-! ## Drafts and their pages -/

section

variable {e : Entity} {draft : Draft}

/-- The page of a draft skips as many rows as the draft does, unless rows are counted. -/
theorem page_skip (h : draft.mode ≠ .count) : (draft.page.skip.getD 0).toNat = draft.skipped := by
  obtain ⟨_, _, _, _, skip, take, order, mode, _⟩ := draft
  cases mode with
  | all | project => rfl
  | count => exact absurd rfl h
  | any =>
    cases skip with
    | none => rfl
    | some n =>
      by_cases hn : 0 < n
      · simp [Draft.page, Draft.skipped, Option.filter, hn]
      · have hzero : n = 0 := by simpa using hn
        simp [Draft.page, Draft.skipped, Option.filter, hzero]

/-- The row counts of a page are in range. -/
theorem page_counted (h : Query.Recorded e draft) : draft.page.Counted where
  skip := by
    by_cases hmode : draft.mode = .count
    · simp [Draft.page, hmode, Page.all]
    · rw [page_skip hmode, Draft.skipped]
      cases hskip : draft.skip with
      | none => exact Nat.zero_le _
      | some n => exact h.skip n hskip
  take := by
    intro n hn
    unfold Draft.page at hn
    split at hn
    · cases hn
    · cases hn
      decide
    · exact h.take n hn
    · exact h.take n hn

/-- The projected columns are declared ones, none of which holds the row numbers. -/
theorem unnumbered_items (hcolumns : e.columns ≠ [])
    (hnames : ∀ c ∈ e.columns, c.name ≠ rowNumberName) (h : Query.Recorded e draft) :
    Unnumbered draft.items := by
  rcases hmode : draft.mode with _ | _ | _ | _
  · exact .inl (by simp [Draft.items, hmode])
  · exact .inr (by simp [Draft.items, hmode])
  · exact .inr (by simp [Draft.items, hmode])
  · rcases hselected : draft.selected with _ | _ | _ | names
    · exact .inl (by simp [Draft.items, hmode, hselected])
    · exact .inl (by simp [Draft.items, hmode, hselected, SelectList.items])
    · exact .inr (by simp [Draft.items, hmode, hselected, SelectList.items])
    · refine .inr ?_
      simp only [Draft.items, hmode, hselected, SelectList.items, Option.map_some,
        Option.getD_some, List.forall_mem_map]
      intro column hcolumn
      obtain ⟨name, hname⟩ := h.selected names hselected column hcolumn
      obtain ⟨c, hc, -, rfl⟩ := Query.declared_of_columnName hcolumns hname
      simp [hnames c hc]

/-- Only a count lists the number of rows. -/
theorem count_not_listed (h : draft.mode = .all ∨ draft.mode = .project) :
    draft.items ≠ [.count] := by
  rcases h with h | h
  · simp [Draft.items, h]
  · rcases hselected : draft.selected with _ | _ | _ | names
    · simp [Draft.items, h, hselected]
    · simp [Draft.items, h, hselected, SelectList.items]
    · simp [Draft.items, h, hselected, SelectList.items]
    · intro hitems
      have hmem : Item.count ∈ draft.items := by simp [hitems]
      simp [Draft.items, h, hselected, SelectList.items] at hmem

/-- What a draft lists of rows is what it lists of each. -/
theorem listing_row (h : draft.mode = .all ∨ draft.mode = .project) (rows : List Row) :
    listing draft.items (e.columns.map Column.name) rows = rows.map (draft.row e) := by
  have hcount : draft.items ≠ [.count] := count_not_listed h
  rw [listing, if_neg hcount]
  refine List.map_congr_left fun r _ => ?_
  rcases h with h | h
  · simp [Draft.items, Draft.row, h, Item.entries]
  · rcases hselected : draft.selected with _ | _ | _ | names
    · simp [Draft.items, Draft.row, h, hselected, Item.entries]
    · simp [Draft.items, Draft.row, h, hselected, SelectList.items, Item.entries]
    · simp [Draft.items, Draft.row, h, hselected, SelectList.items, Item.entries]
    · simp only [Draft.items, Draft.row, h, hselected, SelectList.items, Option.map_some,
        Option.getD_some, List.flatMap_map, Item.entries]
      exact List.flatMap_pure_eq_map r names

/-- A page of no rows in an order is that of a draft of no rows. -/
theorem fetchesNothing_page {d : Dialect} :
    d.FetchesNothing draft.page ↔ Draft.FetchesNothing d draft := by
  unfold Dialect.FetchesNothing Draft.FetchesNothing Draft.page
  cases hmode : draft.mode <;> simp [Page.all]

/-- Whatever the form of a page, its selection has the given condition. -/
theorem condition_selection (form : PageForm) (items : List Item) (condition : String) :
    (form.selection e items condition).condition = condition := by
  cases form <;> rfl

/-- Whatever the form of a page, its selection reads the table of the entity. -/
theorem table_selection (form : PageForm) (items : List Item) (condition : String) :
    (form.selection e items condition).table = e.table := by
  cases form <;> rfl

/-- A count of all rows evaluates to their number. -/
theorem evaluates_count {condition : String} {db : Database} {result : List (List Entry)} :
    ((PageForm.plain none).selection e [.count] condition).Evaluates e db result ↔
      result = [[.number (db.matching e.table condition).length]] := by
  simp only [Selection.Evaluates, PageForm.selection, Source.Reads, Slice.keep, keepTop, listing,
    if_true]
  constructor
  · rintro ⟨rows, _, rfl, hrows, rfl⟩
    rw [hrows.perm.length_eq]
  · intro h
    exact ⟨_, _, rfl, ⟨.refl _, by simp⟩, h⟩

/-- The bounds of a numbered selection are those of its page. -/
theorem between_of_source {d : Dialect} {p : Page} {form : PageForm} {items : List Item}
    {condition : String} {order : OrderBy} {first last : UInt64} (h : d.pageForm p = .ok form)
    (hsource : (form.selection e items condition).source = .numbered order (.between first last)) :
    ∃ n, p.take = some n ∧ first = p.skip.getD 0 + 1 ∧ last = p.skip.getD 0 + n := by
  rcases pageForm_cases h with ⟨-, -, rfl⟩ | ⟨n, -, -, -, rfl⟩ | ⟨-, rfl⟩ | ⟨-, rfl⟩ |
    ⟨o, n, -, -, htake, rfl⟩ | ⟨o, -, -, -, rfl⟩
  · simp [PageForm.selection] at hsource
  · simp [PageForm.selection] at hsource
  · simp [PageForm.selection] at hsource
  · simp [PageForm.selection] at hsource
  · simp only [PageForm.selection, Source.numbered.injEq, NumberRange.between.injEq] at hsource
    exact ⟨n, htake, hsource.2.1.symm, hsource.2.2.symm⟩
  · simp [PageForm.selection] at hsource

/-- The selection of a draft has the bounds of the draft. -/
theorem isBounded_selection {d : Dialect} {s : Selection} (h : Query.Recorded e draft)
    (hs : d.selection e draft = .ok s) : s.IsBounded draft := by
  obtain ⟨form, hform, hs⟩ := bind_eq_ok.mp hs
  cases hs
  have hcounted := page_counted h
  intro order first last hsource
  obtain ⟨n, htake, hfirst, hlast⟩ := between_of_source hform hsource
  have hmode : draft.mode ≠ .count := by
    intro hmode
    simp [Draft.page, hmode, Page.all] at htake
  have hbounds := toNat_bounds hcounted.skip (hcounted.take n htake)
  rw [← hfirst, ← hlast, page_skip hmode] at hbounds
  exact ⟨hbounds.1, n, htake, hbounds.2⟩

/-- The engine takes the selection of a draft unless it fetches no rows. -/
theorem isAccepted_selection {d : Dialect} {s : Selection} (hs : d.selection e draft = .ok s) :
    s.IsAccepted d ↔ ¬ Draft.FetchesNothing d draft := by
  obtain ⟨form, hform, hs⟩ := bind_eq_ok.mp hs
  cases hs
  rw [isAccepted_page hform, fetchesNothing_page]

/-- The selection of a draft answers with what the draft records, if the engine takes it. -/
theorem answersFor_selection {d : Dialect} {s : Selection} (hcolumns : e.columns ≠ [])
    (hnames : ∀ c ∈ e.columns, c.name ≠ rowNumberName) (h : Query.Recorded e draft)
    (hs : d.selection e draft = .ok s) (haccepted : s.IsAccepted d) : s.AnswersFor d e draft := by
  obtain ⟨form, hform, hs⟩ := bind_eq_ok.mp hs
  cases hs
  have hcounted := page_counted h
  have hitems := unnumbered_items hcolumns hnames h
  constructor
  · intro hmode db result
    have hpage : draft.page = ⟨draft.skip, draft.take, draft.order⟩ := by
      rcases hmode with hmode | hmode <;> simp [Draft.page, hmode]
    have horder : draft.page.order = draft.order := by rw [hpage]
    have hkeep (rows : List Row) : draft.page.keep rows = draft.keep rows := by
      rw [hpage]
      rfl
    rw [Selection.answers_iff haccepted,
      evaluates_page hform hcounted hcolumns hnames hitems (count_not_listed hmode)]
    simp only [horder, hkeep, listing_row hmode, condition_selection]
  · intro hmode db
    obtain ⟨some_result, hsome⟩ := Selection.exists_evaluates
      (form.selection e draft.items (d.conditionOf draft)) e db
    refine ⟨⟨some_result, haccepted, hsome⟩, fun result hresult => ?_⟩
    have hcount : draft.items = [.literal 1] := by simp [Draft.items, hmode]
    rw [Selection.answers_iff haccepted,
      evaluates_page hform hcounted hcolumns hnames hitems (by simp [hcount])] at hresult
    obtain ⟨rows, hrows, rfl⟩ := hresult
    have htake : draft.page.take = some 1 := by simp [Draft.page, hmode]
    rw [condition_selection, ← hrows.perm.length_eq, hcount, listing, if_neg (by simp), Page.keep,
      htake, page_skip (by simp [hmode])]
    simp
  · intro hmode db result
    have hpage : draft.page = .all := by simp [Draft.page, hmode]
    have hplain : form = .plain none := by
      rw [hpage] at hform
      cases d <;> cases hform <;> rfl
    have hcount : draft.items = [.count] := by simp [Draft.items, hmode]
    rw [Selection.answers_iff haccepted, hplain, hcount, condition_selection]
    exact evaluates_count

end

/-- A selection reads the table of its entity. -/
theorem selection_table {d : Dialect} {e : Entity} {draft : Draft} {s : Selection}
    (h : d.selection e draft = .ok s) : s.table = e.table := by
  obtain ⟨form, -, h⟩ := bind_eq_ok.mp h
  cases h
  exact table_selection form _ _

/-! ## Compiled queries -/

/-- What a compiled query means. A query is not compiled exactly if it skips rows, other than in a
count, in a dialect of SQL Server without an ordering. Otherwise its statement is the text of a
selection from the table of the entity with the condition of the query; no count and no bound
overflows; and over every database the selection answers with the page, the test or the count that
the query asks for. The one exception is a query for no rows in an order in SQL Server: it has no
answer at all, because its statement fetches no rows, which the engine refuses. -/
theorem compile_pages (d : Dialect) (e : Entity) (root : Expr) (hcolumns : e.columns ≠ [])
    (hnames : ∀ c ∈ e.columns, c.name ≠ rowNumberName) :
    (d.compile e root = .error .missingOrder ↔ ∃ draft, Query.draft e root = .ok draft ∧
      (d = .sqlServer ∨ d = .sqlServerLegacy) ∧ draft.mode ≠ .count ∧ 0 < draft.skipped ∧
      draft.order = none) ∧
    ∀ q, d.compile e root = .ok q → ∃ (draft : Draft) (s : Selection),
      Query.draft e root = .ok draft ∧ q.mode = draft.mode ∧ q.sql = s.write d ∧
      s.table = e.table ∧ s.condition = d.conditionOf draft ∧ draft.skipped ≤ maxCount ∧
      (∀ n, draft.take = some n → n.toNat ≤ maxCount) ∧ s.IsBounded draft ∧
      (¬ Draft.FetchesNothing d draft → s.AnswersFor d e draft) ∧
      (Draft.FetchesNothing d draft → ∀ db result, ¬ s.Answers d e db result) := by
  refine ⟨missingOrder_iff, fun q h => ?_⟩
  obtain ⟨draft, hdraft, s, hs, rfl⟩ := compile_eq_ok.mp h
  have hrecorded := Query.recorded_draft hdraft
  have haccepted := isAccepted_selection hs
  refine ⟨draft, s, hdraft, rfl, rfl, selection_table hs, selection_condition hs, ?_,
    hrecorded.take, isBounded_selection hrecorded hs, fun hfetch => ?_, fun hfetch db result => ?_⟩
  · unfold Draft.skipped
    cases hskip : draft.skip with
    | none => exact Nat.zero_le _
    | some n => exact hrecorded.skip n hskip
  · exact answersFor_selection hcolumns hnames hrecorded hs (haccepted.mpr hfetch)
  · exact fun hanswer => haccepted.mp hanswer.1 hfetch

/-- A table of one column. -/
def singleColumn : Entity := (Entity.ofTable "t").addColumn "a" .int

/-- The third row to the fifth in the order of that column. -/
def thirdToFifth : Expr :=
  .call .take [.call .skip [.call .orderBy [.source, .column "a"], .rowCount 2], .rowCount 3]

/-- The third to the fifth row of a table, in the dialect that pages by row numbers. -/
theorem compile_pages_thirdToFifth :
    (∃ q, Dialect.sqlServerLegacy.compile singleColumn thirdToFifth = .ok q ∧ q.params = []) ∧
    ∃ (draft : Draft) (s : Selection), Query.draft singleColumn thirdToFifth = .ok draft ∧
      draft.skipped = 2 ∧ draft.take = some 3 ∧ s.table = "t" ∧
      s.AnswersFor .sqlServerLegacy singleColumn draft := by
  have hdraft : Query.draft singleColumn thirdToFifth = .ok
      ⟨[], [], false, false, some 2, some 3, some ⟨"a", false⟩, .all, none⟩ := by rfl
  have hcompile : ∃ q, Dialect.sqlServerLegacy.compile singleColumn thirdToFifth = .ok q ∧
      q.params = [] := by
    rw [compile_eq, hdraft]
    exact ⟨_, rfl, rfl⟩
  refine ⟨hcompile, ?_⟩
  obtain ⟨q, hq, -⟩ := hcompile
  obtain ⟨draft, s, hdraft', -, -, htable, -, -, -, -, hs, -⟩ := (compile_pages .sqlServerLegacy
    singleColumn thirdToFifth (by decide) (by decide)).2 q hq
  cases hdraft.symm.trans hdraft'
  exact ⟨_, s, hdraft, by decide, rfl, htable, hs fun h => by cases h.1⟩

/-- No rows in the order of that column. -/
def noRows : Expr := .call .take [.call .orderBy [.source, .column "a"], .rowCount 0]

/-- In SQL Server, the query for no rows in an order is written with a `FETCH` of no rows, and has no
answer over any database, where the page that it asks for is the empty one. -/
theorem unanswered_noRows :
    ∃ (draft : Draft) (s : Selection), Query.draft singleColumn noRows = .ok draft ∧
      draft.mode = .all ∧ s.table = "t" ∧
      Dialect.sqlServer.compile singleColumn noRows = .ok ⟨s.write .sqlServer, [], .all, .sqlServer⟩ ∧
      s.write .sqlServer = "SELECT * FROM [t] ORDER BY [a] OFFSET 0 ROWS FETCH NEXT 0 ROWS ONLY;" ∧
      (∀ db result, ¬ s.Answers .sqlServer singleColumn db result) ∧
      ∀ (db : Database) rows, db.Arranged draft.order (db.matching "t" s.condition) rows →
        (draft.keep rows).map (draft.row singleColumn) = [] := by
  have hdraft : Query.draft singleColumn noRows = .ok
      ⟨[], [], false, false, none, some 0, some ⟨"a", false⟩, .all, none⟩ := by rfl
  refine ⟨_, ⟨none, [.star], .table, "t", "", some ⟨"a", false⟩, .offset 0 (some 0)⟩, hdraft, rfl,
    rfl, ?_, by decide, ?_, ?_⟩
  · rw [compile_eq, hdraft]
    rfl
  · rintro db result ⟨haccepted, -⟩
    rcases haccepted with h | ⟨-, -, skip, fetch, hslice, hfetch⟩
    · cases h
    · cases hslice
      exact hfetch rfl
  · intro db rows _
    simp [Draft.keep]

end SqlCompose
