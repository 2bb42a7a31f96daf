import Mathlib.Algebra.Group.Nat.Defs
import SqlCompose.Proofs.Query.Fault
import SqlCompose.Proofs.Query.Selection

/-!
# What a draft records of its pages

Row counts come from signed words, so none is larger than the largest of them
(`Query.Recorded`), and a projection keeps columns that the entity names. A walk never asks for an
ordering; only the choice of a form does, and `missingOrder_iff` says when.
-/

namespace SqlCompose

/-- The largest row count that is recorded. -/
def maxCount : Nat := 2 ^ 63 - 1

/-- A number of rows that is not recorded is zero where rows are skipped. -/
def Draft.skipped (d : Draft) : Nat := (d.skip.getD 0).toNat

namespace Query

variable {e : Entity}

/-! ## Counts and columns -/

/-- A draft whose row counts are in range and whose projection names columns of the entity. -/
structure Recorded (e : Entity) (d : Draft) : Prop where
  skip : ∀ n, d.skip = some n → n.toNat ≤ maxCount
  take : ∀ n, d.take = some n → n.toNat ≤ maxCount
  selected : ∀ names, d.selected = some (.columns names) →
    ∀ column ∈ names, ∃ name, e.columnName name = .ok column

/-- A row count that is read from an expression is in range. -/
theorem rowCount_le {x : Expr} {n : UInt64} (h : x.rowCount? = some n) : n.toNat ≤ maxCount := by
  unfold Expr.rowCount? at h
  split at h
  next i =>
    split at h
    next hi =>
      cases h
      have hlt := i.toInt_lt
      rw [Int64.toNat_toUInt64_of_le hi, Int64.toNatClampNeg, maxCount]
      omega
    · cases h
  · cases h

/-- The names that members of an entity resolve to are those of its columns. -/
theorem columns_of_mapM {xs : List Expr} {names : List String} (h : xs.mapM e.member = .ok names) :
    ∀ column ∈ names, ∃ name, e.columnName name = .ok column := by
  induction xs generalizing names with
  | nil => cases h; simp
  | cons x xs ih =>
    rw [List.mapM_cons] at h
    obtain ⟨column, hcolumn, h⟩ := bind_eq_ok.mp h
    obtain ⟨rest, hrest, h⟩ := bind_eq_ok.mp h
    cases h
    exact List.forall_mem_cons.mpr ⟨columnName_of_member hcolumn, ih hrest⟩

/-- A projection to columns names columns of the entity. -/
theorem columns_of_projection {x : Expr} {names : List String}
    (h : e.projection x = .ok (.columns names)) :
    ∀ column ∈ names, ∃ name, e.columnName name = .ok column := by
  have one {y : Expr} (h : (do .ok (SelectList.columns [← e.member y])) =
      (.ok (.columns names) : Except QueryError SelectList)) :
      ∀ column ∈ names, ∃ name, e.columnName name = .ok column := by
    obtain ⟨column, hcolumn, h⟩ := bind_eq_ok.mp h
    cases h
    simpa using columnName_of_member hcolumn
  have several {ys : List Expr} (h : (do .ok (SelectList.columns (← ys.mapM e.member))) =
      (.ok (.columns names) : Except QueryError SelectList)) :
      ∀ column ∈ names, ∃ name, e.columnName name = .ok column := by
    obtain ⟨columns, hcolumns, h⟩ := bind_eq_ok.mp h
    cases h
    exact columns_of_mapM hcolumns
  unfold Entity.projection at h
  split at h
  split at h
  · split at h <;> cases h
  · cases h
  · exact several h
  · exact one h
  · exact one h
  · cases h

/-- One step of a query records counts in range and columns of the entity. -/
theorem recorded_step {d d' : Draft} (h : Step e d d') (hd : Recorded e d) : Recorded e d' := by
  have keep {d' : Draft} (hs : d'.skip = d.skip) (ht : d'.take = d.take)
      (hc : d'.selected = d.selected) : Recorded e d' :=
    ⟨hs ▸ hd.skip, ht ▸ hd.take, hc ▸ hd.selected⟩
  cases h with
  | column | op | null | bind | truth | opening | word | nested | group => exact keep rfl rfl rfl
  | afterFilter op =>
    have hone : ∀ n : UInt64, some 1 = some n → n.toNat ≤ maxCount := by
      rintro _ ⟨rfl⟩
      decide
    cases op with
    | first | firstOrDefault | single | singleOrDefault | any =>
      exact ⟨hd.skip, hone, hd.selected⟩
    | _ => exact keep rfl rfl rfl
  | @applied op arg _ _ h =>
    have hcount {n : UInt64} (h : arg.bind Expr.rowCount? = some n) : n.toNat ≤ maxCount := by
      obtain ⟨x, -, h⟩ := Option.bind_eq_some_iff.mp h
      exact rowCount_le h
    cases applied_of_applyStep h with
    | take hn => exact ⟨hd.skip, by rintro _ ⟨rfl⟩; exact hcount hn, hd.selected⟩
    | skip hn => exact ⟨by rintro _ ⟨rfl⟩; exact hcount hn, hd.take, hd.selected⟩
    | order => exact keep rfl rfl rfl
    | select hselected =>
      refine ⟨hd.skip, hd.take, ?_⟩
      rintro names ⟨rfl⟩
      exact columns_of_projection hselected
    | other => exact hd

/-- Every query that can be drafted records counts in range and columns of the entity. -/
theorem recorded_draft {root : Expr} {d : Draft} (h : draft e root = .ok d) : Recorded e d :=
  (walk h (Draft.open_of_tokens_eq_nil rfl)).invariant (fun _ _ => recorded_step)
    ⟨by simp [Draft.empty, Draft.ofBound], by simp [Draft.empty, Draft.ofBound],
      by simp [Draft.empty, Draft.ofBound]⟩

/-! ## Asking for an ordering -/

/-- Whether a computation does not fail for want of an ordering. -/
def AsksNoOrder {α : Type} (x : Except QueryError α) : Prop := x ≠ .error .missingOrder

/-- A walk never asks for an ordering. -/
theorem asksNoOrder_visit (p : Bool) (x : Expr) (d : Draft) : AsksNoOrder (visit e p x d) := by
  intro h
  cases onlyRefuses_visit p x d _ h

end Query

/-- A dialect has no form for a page if it needs an ordering to skip rows and there is none. -/
theorem pageForm_eq_error {d : Dialect} {p : Page} {fault : QueryError} :
    d.pageForm p = .error fault ↔ fault = .missingOrder ∧
      (d = .sqlServer ∨ d = .sqlServerLegacy) ∧ 0 < p.skip.getD 0 ∧ p.order = none := by
  obtain ⟨skip, take, order⟩ := p
  cases d with
  | mySql => simp [Dialect.pageForm, Dialect.paging]
  | postgres =>
    cases h : (Page.mk skip take order).isPaged <;> simp [Dialect.pageForm, Dialect.paging, h]
  | sqlServer =>
    cases skip <;> cases take <;> cases order <;>
      simp [Dialect.pageForm, Dialect.paging, Page.isPaged] <;>
      split <;> simp_all [eq_comm]
  | sqlServerLegacy =>
    by_cases hskip : skip.getD 0 = 0 <;> cases take <;> cases order <;>
      simp [Dialect.pageForm, Dialect.paging, hskip, UInt64.pos_iff_ne_zero, eq_comm]

/-- Where a draft skips rows without an ordering, its page does. -/
theorem page_unordered {draft : Draft} :
    (0 < draft.page.skip.getD 0 ∧ draft.page.order = none) ↔
      draft.mode ≠ .count ∧ 0 < draft.skipped ∧ draft.order = none := by
  have hskipped : 0 < draft.skipped ↔ 0 < draft.skip.getD 0 := by
    simp [Draft.skipped, UInt64.lt_iff_toNat_lt]
  rw [hskipped]
  obtain ⟨_, _, _, _, skip, take, order, mode, _⟩ := draft
  cases mode with
  | all | project => simp [Draft.page]
  | count => simp [Draft.page, Page.all]
  | any =>
    cases skip with
    | none => simp [Draft.page]
    | some n => by_cases hn : 0 < n <;> simp [Draft.page, Option.filter, hn]

/-- A query fails for want of an ordering if its dialect needs one to skip rows, the query skips
rows and does not count them, and no ordering was recorded. -/
theorem missingOrder_iff {d : Dialect} {e : Entity} {root : Expr} :
    d.compile e root = .error .missingOrder ↔ ∃ draft, Query.draft e root = .ok draft ∧
      (d = .sqlServer ∨ d = .sqlServerLegacy) ∧ draft.mode ≠ .count ∧ 0 < draft.skipped ∧
      draft.order = none := by
  rw [compile_eq]
  cases hdraft : Query.draft e root with
  | error fault =>
    have hfault : fault ≠ .missingOrder := fun h =>
      Query.asksNoOrder_visit false root Draft.empty (h ▸ hdraft)
    simp [bind, Except.bind, hfault]
  | ok draft =>
    have hselection : d.selection e draft = .error .missingOrder ↔
        (d = .sqlServer ∨ d = .sqlServerLegacy) ∧ draft.mode ≠ .count ∧ 0 < draft.skipped ∧
          draft.order = none := by
      rw [Dialect.selection, bind_ok_eq_error, pageForm_eq_error, page_unordered]
      simp
    simp only [Except.ok.injEq, exists_eq_left', ← hselection]
    exact bind_ok_eq_error

end SqlCompose
