import SqlCompose.Proofs.Session.Refusal

/-!
# Rows that are fetched

A row is read through its record, or through its first cell where the record is not read and the
result has one column. The rows of a result are read in their order, one value for each, and the
first row that is refused makes the whole of it fail (`ResultSet.materialize_eq_iff`). A row without
cells has no first cell to read: in a result with one column, reading it breaks off unless the
record without fields is read (`ResultSet.materialize_ne_broken`). An operation that fetches rows
ends as reading them ends, and leaves the connection as its statement left it
(`fetch_materializes`).
-/

namespace SqlCompose

namespace ResultSet

section Rows

variable {α : Type} (decode : Json → Except Json.DecodeFault α) (r : ResultSet) (e : Entity)

/-! ## One row -/

/-- How a row is read as a value. -/
inductive Reads : List Value → α → Prop
  | record {row : List Value} {a : α} (h : decode (.object (r.record e row)) = .ok a) : Reads row a
  | cell {cell : Value} {cells : List Value} {fault : Json.DecodeFault} {a : α}
    (hone : r.columns.length = 1)
    (hrecord : decode (.object (r.record e (cell :: cells))) = .error fault)
    (h : decode cell.toJson = .ok a) : Reads (cell :: cells) a

/-- How a row is refused: by its record, or by its cell where that is looked at. -/
inductive Refuses : List Value → Json.DecodeFault → Prop
  | record {row : List Value} {fault : Json.DecodeFault} (hmany : r.columns.length ≠ 1)
    (h : decode (.object (r.record e row)) = .error fault) : Refuses row fault
  | cell {cell : Value} {cells : List Value} {fault fault' : Json.DecodeFault}
    (hone : r.columns.length = 1)
    (hrecord : decode (.object (r.record e (cell :: cells))) = .error fault')
    (h : decode cell.toJson = .error fault) : Refuses (cell :: cells) fault

/-- Whether a row without cells has nothing that could be read or refused: the record without fields
is not read, and there is no cell to fall back on. -/
def Baffles : Prop := r.columns.length = 1 ∧ ∃ fault, decode (.object []) = .error fault

variable {decode r e} {row : List Value} {a : α} {fault : Json.DecodeFault}

/-- The record of a row without cells has no fields. -/
theorem record_nil : r.record e [] = [] := by simp [record, Fields.ofList]

/-- A row that can be read is decoded as the value it reads as. -/
theorem decodeRow_of_reads (h : r.Reads decode e row a) : r.decodeRow decode e row = .done a := by
  cases h with
  | record h => rw [decodeRow, h]
  | cell hone hrecord h =>
    rw [decodeRow, hrecord]
    simp only [if_pos hone, decodeCell, h]

/-- A row that is refused fails with the fault it is refused for. -/
theorem decodeRow_of_refuses (h : r.Refuses decode e row fault) :
    r.decodeRow decode e row = .failed (.undecodable fault) := by
  cases h with
  | record hmany h =>
    rw [decodeRow, h]
    exact if_neg hmany
  | cell hone hrecord h =>
    rw [decodeRow, hrecord]
    simp only [if_pos hone, decodeCell, h]

/-- A row without cells breaks the operation off where the record is not read and the only cell is
looked for. -/
theorem decodeRow_of_baffles (h : r.Baffles decode) : r.decodeRow decode e [] = .broken := by
  obtain ⟨hone, fault, hfault⟩ := h
  rw [decodeRow, record_nil, hfault]
  exact if_pos hone

/-- A row is read, or it is refused, or it has no cells and baffles the reader. -/
theorem row_cases (decode : Json → Except Json.DecodeFault α) (r : ResultSet) (e : Entity)
    (row : List Value) : (∃ a, r.Reads decode e row a) ∨ (∃ fault, r.Refuses decode e row fault) ∨
      row = [] ∧ r.Baffles decode := by
  cases hrecord : decode (.object (r.record e row)) with
  | ok a => exact .inl ⟨a, .record hrecord⟩
  | error fault =>
    by_cases hone : r.columns.length = 1
    · cases row with
      | nil => exact .inr (.inr ⟨rfl, hone, fault, record_nil (e := e) ▸ hrecord⟩)
      | cons cell cells =>
        cases hcell : decode cell.toJson with
        | ok a => exact .inl ⟨a, .cell hone hrecord hcell⟩
        | error fault' => exact .inr (.inl ⟨fault', .cell hone hrecord hcell⟩)
    · exact .inr (.inl ⟨fault, .record hone hrecord⟩)

/-! ## All rows -/

variable (decode r e)

/-- How reading rows ends: with one value for each row in their order, with the fault of the first
row that is not read, or not at all. -/
inductive Ends (rows : List (List Value)) : Outcome (List α) → Prop
  | done {as : List α} (h : List.Forall₂ (r.Reads decode e) rows as) : Ends rows (.done as)
  | failed {before after : List (List Value)} {row : List Value} {as : List α}
    {fault : Json.DecodeFault} (hrows : rows = before ++ row :: after)
    (hbefore : List.Forall₂ (r.Reads decode e) before as) (hrow : r.Refuses decode e row fault) :
    Ends rows (.failed (.undecodable fault))
  | broken {before after : List (List Value)} {as : List α} (hrows : rows = before ++ [] :: after)
    (hbefore : List.Forall₂ (r.Reads decode e) before as) (hrow : r.Baffles decode) :
    Ends rows .broken

variable {decode r e} {rows : List (List Value)} {o : Outcome (List α)}

/-- A row that is read in front of others. -/
theorem Ends.cons (hrow : r.Reads decode e row a) (h : r.Ends decode e rows o) :
    r.Ends decode e (row :: rows) (o.map (a :: ·)) := by
  cases h with
  | done h => exact .done (.cons hrow h)
  | failed hrows hbefore hfault =>
    exact .failed (congrArg (row :: ·) hrows) (.cons hrow hbefore) hfault
  | broken hrows hbefore hbaffles =>
    exact .broken (congrArg (row :: ·) hrows) (.cons hrow hbefore) hbaffles

/-- A first row that is read puts its value in front of those of the rest. -/
theorem decodeRows_cons (hrow : r.Reads decode e row a) (rows : List (List Value)) :
    r.decodeRows decode e (row :: rows) = (r.decodeRows decode e rows).map (a :: ·) := by
  rw [decodeRows, decodeRow_of_reads hrow]
  cases r.decodeRows decode e rows <;> rfl

/-- Rows end as reading them one after the other does. -/
theorem ends_decodeRows (decode : Json → Except Json.DecodeFault α) (r : ResultSet) (e : Entity)
    (rows : List (List Value)) : r.Ends decode e rows (r.decodeRows decode e rows) := by
  induction rows with
  | nil => exact .done .nil
  | cons row rows ih =>
    rcases row_cases decode r e row with ⟨a, hreads⟩ | ⟨fault, hrefuses⟩ | ⟨rfl, hbaffles⟩
    · rw [decodeRows_cons hreads]
      exact ih.cons hreads
    · rw [decodeRows, decodeRow_of_refuses hrefuses]
      exact .failed (List.nil_append _).symm .nil hrefuses
    · rw [decodeRows, decodeRow_of_baffles hbaffles]
      exact .broken (List.nil_append _).symm .nil hbaffles

/-- Rows that are read in front of others. -/
theorem decodeRows_append {before : List (List Value)} {as : List α}
    (h : List.Forall₂ (r.Reads decode e) before as) (rows : List (List Value)) :
    r.decodeRows decode e (before ++ rows) = (r.decodeRows decode e rows).map (as ++ ·) := by
  induction h with
  | nil => cases h : r.decodeRows decode e rows <;> simp [h, Outcome.map]
  | cons hrow _ ih =>
    rw [List.cons_append, decodeRows_cons hrow, ih]
    cases r.decodeRows decode e rows <;> rfl

/-- Rows end in one way only. -/
theorem Ends.eq_decodeRows (h : r.Ends decode e rows o) : r.decodeRows decode e rows = o := by
  cases h with
  | done h => simpa [decodeRows, Outcome.map] using decodeRows_append h []
  | failed hrows hbefore hrow =>
    rw [hrows, decodeRows_append hbefore, decodeRows, decodeRow_of_refuses hrow]
    rfl
  | broken hrows hbefore hrow =>
    rw [hrows, decodeRows_append hbefore, decodeRows, decodeRow_of_baffles hrow]
    rfl

/-- A result is materialized as its rows end. -/
theorem materialize_eq_iff : r.materialize decode e = o ↔ r.Ends decode e r.rows o :=
  ⟨fun h => h ▸ ends_decodeRows decode r e r.rows, Ends.eq_decodeRows⟩

/-- Reading rows breaks off only where a result with one column has a row without cells, and only
at types that do not read the object without members. -/
theorem materialize_ne_broken
    (h : r.columns.length = 1 → [] ∈ r.rows → ∃ a, decode (.object []) = .ok a) :
    r.materialize decode e ≠ .broken := by
  intro hbroken
  cases materialize_eq_iff.mp hbroken with
  | broken hrows _ hbaffles =>
    obtain ⟨hone, fault, hfault⟩ := hbaffles
    obtain ⟨a, ha⟩ := h hone (by simp [hrows])
    rw [hfault] at ha
    cases ha

end Rows

end ResultSet

/-! ## Operations that fetch rows -/

/-- An operation that fetches rows. -/
inductive Fetching where
  | all (x : Handle)
  | oneOrNone (x : Handle) (op : Operator) (predicate : Option Expr)
  | one (x : Handle) (op : Operator) (predicate : Option Expr)
  | byKey (key : Value)

namespace Fetching

variable {σ : Type} (r : Repository σ)

/-- Fetch rows; where there is one at most it is the only item of a list. -/
def fetch : Fetching → Run (Held σ) (List Datum)
  | all x => x.toList r.connection
  | oneOrNone x op predicate => do pure (← x.one? r.connection op predicate).toList
  | one x op predicate => do pure [← x.one r.connection op predicate]
  | byKey key => do pure (← r.get key).toList

/-- What the rows are read as. -/
def shape : Fetching → Shape
  | all x | oneOrNone x _ _ | one x _ _ => x.shape
  | byKey _ => r.shape

/-- The table that the rows are from. -/
def entity : Fetching → Entity
  | all x | oneOrNone x _ _ | one x _ _ => x.entity
  | byKey _ => r.entity

/-- The statement that the rows are an answer to. -/
inductive Asks : Fetching → String → List Value → Prop
  | all {x : Handle} {q : CompiledQuery} (h : x.build r.dialect = .ok q) :
    Asks (all x) q.sql q.params
  | oneOrNone {x : Handle} {op : Operator} {predicate : Option Expr} {q : CompiledQuery}
    (h : x.buildTerminal r.dialect op predicate = .ok q) :
    Asks (oneOrNone x op predicate) q.sql q.params
  | one {x : Handle} {op : Operator} {predicate : Option Expr} {q : CompiledQuery}
    (h : x.buildTerminal r.dialect op predicate = .ok q) : Asks (one x op predicate) q.sql q.params
  | byKey {key : Value} {k : Column} (h : r.entity.requireKey = .ok k)
    (hkey : Repository.isVacant key = false) :
    Asks (byKey key) (Statement.selectByKey r.dialect r.entity.table k.name) [r.dialect.param key]

/-- What an operation makes of the rows that have been read. -/
def result : Fetching → List Datum → Outcome (List Datum)
  | all _, rows => .done rows
  | oneOrNone .., rows | byKey _, rows => .done (rows.take 1)
  | one .., [] => .failed .noRows
  | one .., row :: _ => .done [row]

variable {r} {s s' : Held σ} {rs : ResultSet} {sql : String} {params : List Value}

/-- A row that is looked for is the first one. -/
theorem one?_of_answer {x : Handle} {op : Operator} {predicate : Option Expr} {q : CompiledQuery}
    (h : x.buildTerminal r.dialect op predicate = .ok q)
    (hanswer : r.connection.execute q.sql q.params s = (.done rs, s')) :
    x.one? r.connection op predicate s =
      ((rs.materialize x.shape.decode x.entity).map List.head?, s') := by
  refine (Run.lift_bind_of_ok h _ s).trans ?_
  simp only [bind, Run.andThen, Connection.fetch, Connection.run, hanswer, Run.ofOutcome]
  cases rs.materialize x.shape.decode x.entity <;> rfl

/-- An operation whose statement is answered ends as reading the rows of the answer does, in the
state that the answer came in. -/
theorem fetch_of_answer {f : Fetching} (hasks : f.Asks r sql params)
    (hanswer : r.connection.execute sql params s = (.done rs, s')) :
    f.fetch r s =
      ((rs.materialize (f.shape r).decode (f.entity r)).bind f.result, s') := by
  have htake (rows : List Datum) : rows.head?.toList = rows.take 1 := by cases rows <;> rfl
  cases hasks with
  | @all x q h =>
    refine (Run.lift_bind_of_ok h _ s).trans ?_
    simp only [bind, Run.andThen, Connection.fetch, Connection.run, hanswer, Run.ofOutcome,
      shape, entity]
    cases rs.materialize x.shape.decode x.entity <;> rfl
  | @oneOrNone x op predicate q h =>
    simp only [fetch, bind, Run.andThen, one?_of_answer h hanswer, shape, entity]
    cases rs.materialize x.shape.decode x.entity with
    | done rows => exact congrArg (fun rows => (Outcome.done rows, s')) (htake rows)
    | _ => rfl
  | @one x op predicate q h =>
    simp only [fetch, Handle.one, bind, Run.andThen, one?_of_answer h hanswer, shape, entity]
    cases rs.materialize x.shape.decode x.entity with
    | done rows => cases rows <;> rfl
    | _ => rfl
  | @byKey key k h hkey =>
    have hget : r.get key s = ((rs.materialize r.shape.decode r.entity).map List.head?, s') := by
      refine (Run.lift_bind_of_ok h _ s).trans ?_
      simp only [hkey, Bool.false_eq_true, if_false, bind, Run.andThen, hanswer, Run.ofOutcome]
      cases rs.materialize r.shape.decode r.entity <;> rfl
    simp only [fetch, bind, Run.andThen, hget, shape, entity]
    cases rs.materialize r.shape.decode r.entity with
    | done rows => exact congrArg (fun rows => (Outcome.done rows, s')) (htake rows)
    | _ => rfl

end Fetching

/-- For every type of rows and every result, reading the rows ends in exactly one way: with one value
for each row in their order, with an error that says why the first row that is not read is refused,
or, where the result has one column and such a row has no cells, by breaking off. It never breaks
off in a result with other than one column, without a row without cells, or at a type that reads the
object without members. An operation that fetches rows ends as reading the rows of its answer does,
and leaves the connection as it was with the answer. -/
theorem fetch_materializes {σ : Type} (r : Repository σ) (s s' : Held σ) (rs : ResultSet) :
    (∀ (α : Type) (decode : Json → Except Json.DecodeFault α) (e : Entity),
      (∀ o, rs.materialize decode e = o ↔ rs.Ends decode e rs.rows o) ∧
      ((rs.columns.length = 1 → [] ∈ rs.rows → ∃ a, decode (.object []) = .ok a) →
        rs.materialize decode e ≠ .broken) ∧
      ∀ q, r.connection.run q s = (.done rs, s') →
        r.connection.fetch decode e q s = (rs.materialize decode e, s')) ∧
    ∀ (f : Fetching) (sql : String) (params : List Value), f.Asks r sql params →
      r.connection.execute sql params s = (.done rs, s') →
      ∃ o, rs.Ends (f.shape r).decode (f.entity r) rs.rows o ∧ f.fetch r s = (o.bind f.result, s') := by
  refine ⟨fun α decode e => ⟨fun o => ResultSet.materialize_eq_iff,
    ResultSet.materialize_ne_broken, fun q hq => ?_⟩, fun f sql params hasks hanswer => ?_⟩
  · simp only [Connection.fetch, bind, Run.andThen, hq, Run.ofOutcome]
  · exact ⟨_, ResultSet.ends_decodeRows _ rs _ rs.rows, Fetching.fetch_of_answer hasks hanswer⟩

/-- The names of two users, the second one with a cell too many. -/
def nameRows : ResultSet :=
  ⟨[⟨"name", "text"⟩], [[.text "Ada"], [.text "Alan", .int 2]]⟩

/-- A repository of users of which the names are read. -/
def scriptedNames : Repository Script :=
  ⟨Script.connection .sqlServer, Sample.users, .cell ⟨.text, false⟩⟩

/-- All users, of which the names are read. -/
def allNames : Fetching := .all (Handle.ofEntity Sample.users (.cell ⟨.text, false⟩))

/-- The names of two users, the second row with a cell too many. -/
theorem fetch_materializes_names : ∃ s, (allNames.fetch scriptedNames
      ⟨{ isOpen := true, results := [.succeed nameRows] }, false⟩) =
    (.done [.plain (.string "Ada"), .plain (.string "Alan")], s) := by
  obtain ⟨hmaterialize, hfetch⟩ := fetch_materializes scriptedNames
    ⟨{ isOpen := true, results := [.succeed nameRows] }, false⟩ _ nameRows
  obtain ⟨o, hends, hrun⟩ := hfetch allNames "SELECT * FROM [users]" []
    (.all (q := ⟨_, _, _, _⟩) (by with_unfolding_all rfl)) rfl
  have hdone : o = .done [.plain (.string "Ada"), .plain (.string "Alan")] :=
    ((hmaterialize _ _ _).1 o).mpr hends ▸ (by rfl)
  exact ⟨_, hdone ▸ hrun⟩

/-- A result with one column and a row without cells. -/
def emptyRow : ResultSet := ⟨[⟨"id", "int"⟩], [[]]⟩

/-- Fetching users breaks off at a row without cells, although the same row has a record, and the
first cell of the same result is merely missing. -/
theorem broken_emptyRow :
    ((Handle.ofEntity Sample.users Sample.user).toList (Script.connection .sqlServer)
      ⟨{ isOpen := true, results := [.succeed emptyRow] }, false⟩).1 = .broken ∧
    emptyRow.records Sample.users = [[]] ∧ emptyRow.scalar? = none := by
  refine ⟨by with_unfolding_all rfl, by rfl, by rfl⟩

end SqlCompose
