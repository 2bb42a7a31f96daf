import SqlCompose.Proofs.Query.Selection

/-!
# What a selection answers with

An engine may return rows in any order that the statement allows, so the meaning of a selection is
a relation: `Selection.Answers` says which results it can have over a database, where it reads the
table that it names. Conditions are left to the engine; what is fixed is the meaning of the clauses
around them: `ORDER BY` sorts, `TOP`, `OFFSET`, `FETCH` and `limit` keep a part of the sorted rows,
and `ROW_NUMBER` counts the rows in an ordering from one. Each engine has some of these clauses only,
and refuses a statement with any other (`Selection.IsAccepted`): `OFFSET` needs an ordering in SQL
Server, and `FETCH` a count of at least one row. A statement that is refused has no result.
-/

namespace SqlCompose

/-! ## Databases -/

/-- What a row or a result holds in one column. -/
inductive Entry where
  /-- A value of a column. -/
  | value (v : Value)
  /-- A number that the statement computes. -/
  | number (n : Nat)

/-- A row: what it holds in the column of a name. -/
abbrev Row : Type := String → Entry

/-- Tables with their engine. -/
structure Database where
  /-- The rows of the table of a name. -/
  rows : String → List Row
  /-- Whether a condition, given by its text, holds of a row. -/
  holds : String → Row → Bool
  /-- Whether an entry comes before another one or is tied with it. -/
  le : Entry → Entry → Bool
  /-- What comes before an entry comes before all that this one comes before. -/
  le_trans : ∀ a b c, le a b = true → le b c = true → le a c = true
  /-- Of two entries, one comes before the other or is tied with it. -/
  le_total : ∀ a b, (le a b || le b a) = true
  /-- Computed numbers come in their order. -/
  le_number : ∀ m n, le (.number m) (.number n) = decide (m ≤ n)

namespace Database

variable (db : Database)

/-- The rows of a table of which a condition holds; the empty condition holds of all rows. -/
def matching (table condition : String) : List Row :=
  if condition.isEmpty then db.rows table else (db.rows table).filter (db.holds condition)

/-- Whether a row may stand in front of another one. -/
def inOrder (o : OrderBy) (a b : Row) : Bool :=
  if o.descending then db.le (b o.column) (a o.column) else db.le (a o.column) (b o.column)

/-- Rows in an order that an ordering allows; without one, every order is allowed. -/
structure Arranged (order : Option OrderBy) (rows arranged : List Row) : Prop where
  /-- They are the same rows. -/
  perm : arranged.Perm rows
  /-- No row stands behind one that has to follow it. -/
  sorted : ∀ o, order = some o → arranged.Pairwise fun a b => db.inOrder o a b = true

/-- There is such an order. -/
theorem exists_arranged (order : Option OrderBy) (rows : List Row) :
    ∃ arranged, db.Arranged order rows arranged := by
  cases order with
  | none => exact ⟨rows, .refl _, by simp⟩
  | some o =>
    refine ⟨rows.mergeSort (db.inOrder o), rows.mergeSort_perm _, ?_⟩
    rintro _ ⟨rfl⟩
    obtain ⟨column, descending⟩ := o
    cases descending with
    | true =>
      refine List.pairwise_mergeSort ?_ (fun a b => db.le_total _ _) rows
      exact fun a b c hab hbc => db.le_trans _ _ _ hbc hab
    | false =>
      refine List.pairwise_mergeSort ?_ (fun a b => db.le_total _ _) rows
      exact fun a b c hab hbc => db.le_trans _ _ _ hab hbc

end Database

/-! ## The parts of a selection -/

/-- Whether a range holds a row number. -/
def NumberRange.holds : NumberRange → Nat → Bool
  | .between first last, n => decide (first.toNat ≤ n ∧ n ≤ last.toNat)
  | .beyond last, n => decide (last.toNat < n)

/-- A row with its number. -/
def Row.withNumber (r : Row) (n : Nat) : Row := Function.update r rowNumberName (.number n)

/-- Rows numbered from one. -/
def numberRows (rows : List Row) : List (Row × Nat) := rows.zipIdx 1

/-- The rows that a source reads from a table. -/
def Source.Reads (db : Database) (table condition : String) : Source → List Row → Prop
  | .table, rows => rows = db.matching table condition
  | .numbered order range, rows => ∃ arranged,
    db.Arranged (some order) (db.matching table condition) arranged ∧
      rows = ((numberRows arranged).filter fun r => range.holds r.2).map fun r =>
        r.1.withNumber r.2

/-- The columns that a source has. -/
def Source.columns (e : Entity) : Source → List String
  | .table => e.columns.map Column.name
  | .numbered _ _ => e.columns.map Column.name ++ [rowNumberName]

/-- The entries that an item lists of a row; the number of rows is none of them. -/
def Item.entries (columns : List String) (r : Row) : Item → List Entry
  | .star => columns.map r
  | .count => []
  | .literal n => [.number n]
  | .column name => [r name]

/-- What is listed of several rows. -/
def listing (items : List Item) (columns : List String) (rows : List Row) : List (List Entry) :=
  if items = [.count] then [[.number rows.length]]
  else rows.map fun r => items.flatMap (Item.entries columns r)

/-- The part of rows that a slice keeps; the largest row count stands for no limit. -/
def Slice.keep {α : Type} : Slice → List α → List α
  | .all, rows => rows
  | .offset skip none, rows => rows.drop skip
  | .offset skip (some n), rows => (rows.drop skip).take n
  | .limit skip take, rows =>
    if take = Dialect.noLimit.toNat then rows.drop skip else (rows.drop skip).take take

/-- The first rows, or all. -/
def keepTop {α : Type} : Option Nat → List α → List α
  | none, rows => rows
  | some n, rows => rows.take n

/-! ## Selections -/

namespace Selection

variable (s : Selection)

/-- Whether an engine takes a selection. Every engine has its own clauses for a part of the rows;
`OFFSET` needs an ordering in SQL Server, where `FETCH` needs a count of at least one. -/
def IsAccepted : Dialect → Prop
  | .sqlServer => s.slice = .all ∨ s.top = none ∧ s.order.isSome = true ∧
    ∃ skip fetch, s.slice = .offset skip fetch ∧ fetch ≠ some 0
  | .sqlServerLegacy => s.slice = .all
  | .postgres => s.top = none ∧ (s.slice = .all ∨ ∃ skip fetch, s.slice = .offset skip fetch)
  | .mySql => s.top = none ∧ (s.slice = .all ∨ ∃ skip take, s.slice = .limit skip take)

/-- Whether a selection evaluates to a result: the rows of the table that it names, in an order that
it allows, listed and cut. -/
def Evaluates (e : Entity) (db : Database) (result : List (List Entry)) : Prop :=
  ∃ rows arranged, s.source.Reads db s.table s.condition rows ∧ db.Arranged s.order rows arranged ∧
    result = s.slice.keep (keepTop s.top (listing s.items (s.source.columns e) arranged))

/-- Whether a selection can have a result over a database whose table has the columns of an entity:
the engine takes it, and it evaluates to the result. -/
def Answers (d : Dialect) (e : Entity) (db : Database) (result : List (List Entry)) : Prop :=
  s.IsAccepted d ∧ s.Evaluates e db result

/-- Every selection evaluates to some result. -/
theorem exists_evaluates (e : Entity) (db : Database) : ∃ result, s.Evaluates e db result := by
  have hrows : ∃ rows, s.source.Reads db s.table s.condition rows := by
    cases s.source with
    | table => exact ⟨_, rfl⟩
    | numbered order range =>
      obtain ⟨arranged, h⟩ := db.exists_arranged (some order) (db.matching s.table s.condition)
      exact ⟨_, arranged, h, rfl⟩
  obtain ⟨rows, hrows⟩ := hrows
  obtain ⟨arranged, harranged⟩ := db.exists_arranged s.order rows
  exact ⟨_, rows, arranged, hrows, harranged, rfl⟩

variable {s}

/-- A selection that the engine takes has the results that it evaluates to. -/
theorem answers_iff {d : Dialect} (h : s.IsAccepted d) {e : Entity} {db : Database}
    {result : List (List Entry)} : s.Answers d e db result ↔ s.Evaluates e db result :=
  and_iff_right h

end Selection

end SqlCompose
