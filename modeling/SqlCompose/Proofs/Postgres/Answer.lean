import SqlCompose.Postgres.Client
import SqlCompose.Postgres.Staged
import SqlCompose.Proofs.Postgres.Cell

/-!
# Rows that a statement answers with

A query answers with one value for each cell of the server's rows. `query_cells` says which: the
value that the bytes of the cell stand for in the type of its column, and null for a cell that is
null, but also for bytes that stand for no value. A type that is known by its name only has no other
cells, unless it is one of the texts of extensions.
-/

namespace SqlCompose.Postgres

variable {σ α β : Type}

/-! ## Runs that are done -/

/-- Two operations one after the other have a result when both do. -/
theorem bind_eq_done {x : Run σ α} {f : α → Run σ β} {s s' : σ} {b : β} :
    (x >>= f) s = (.done b, s') ↔ ∃ a m, x s = (.done a, m) ∧ f a m = (.done b, s') := by
  show Run.andThen x f s = _ ↔ _
  unfold Run.andThen
  constructor
  · intro h
    split at h
    case h_1 a m hx => exact ⟨a, m, hx, h⟩
    case h_2 => cases h
    case h_3 => cases h
  · rintro ⟨a, m, hx, hf⟩
    rw [hx]
    exact hf

/-- An operation that does nothing has its result at once. -/
theorem pure_eq_done {a b : α} {s s' : σ} :
    (pure a : Run σ α) s = (.done b, s') ↔ a = b ∧ s = s' := by
  show ((Outcome.done a, s) : Outcome α × σ) = _ ↔ _
  simp

/-- A computation as an operation has a result when the computation does. -/
theorem lift_eq_done {r : Except QueryError α} {a : α} {s s' : σ} :
    (Run.lift r) s = (.done a, s') ↔ r = .ok a ∧ s = s' := by
  show ((Outcome.ofExcept r, s) : Outcome α × σ) = _ ↔ _
  cases r <;> simp [Outcome.ofExcept]

/-- What a server grants is what a request is answered with. -/
theorem granted_of_ask {request : σ → Answer α × σ} {link link' : Link σ} {a : α}
    (h : ask request link = (.done a, link')) : request link.server = (.granted a, link'.server) := by
  unfold ask at h
  split at h
  · cases h
  · cases h
  · split at h
    · rename_i hrequest
      cases h
      exact hrequest
    · cases h
    · cases h

/-! ## Cells of a row -/

/-- The cell of a row is read by the type of its column. -/
theorem getElem?_readRow {columns : List (String × PgType)} {forms : List Form} {j : Nat}
    {name : String} {t : PgType} (h : columns[j]? = some (name, t)) :
    (readRow columns forms)[j]? = some (t.cell forms[j]?.join) := by
  induction columns generalizing forms j with
  | nil => simp at h
  | cons column columns ih =>
    cases j with
    | zero =>
      obtain rfl : column = (name, t) := by simpa using h
      cases forms <;> rfl
    | succ j =>
      have hcolumn : columns[j]? = some (name, t) := by simpa using h
      cases forms with
      | nil => exact ih hcolumn
      | cons form forms => simpa [readRow] using ih hcolumn

/-! ## Answers -/

/-- A query with an answer was prepared, had its values bound and was executed, and the answer is
made from what was granted. -/
theorem granted_of_query {server : Server σ} {files : Files} {p : Profile} {sql : String}
    {values : List Value} {link link' : Link σ} {rs : ResultSet}
    (h : (connection server files p).query sql values link = (.done rs, link')) :
    ∃ prepared parameters done s,
      server.preparing sql link.server = (.granted prepared, s) ∧
      bindAll prepared.params values = .ok parameters ∧
      server.executing parameters s = (.granted done, link'.server) ∧
      rs = answerOf prepared done := by
  obtain ⟨⟨prepared, done⟩, m, hperform, hanswer⟩ := bind_eq_done.mp h
  obtain ⟨rfl, rfl⟩ := pure_eq_done.mp hanswer
  obtain ⟨prepared', m₁, hprepare, hperform⟩ := bind_eq_done.mp hperform
  obtain ⟨parameters, m₂, hbind, hperform⟩ := bind_eq_done.mp hperform
  obtain ⟨done', m₃, hexecute, hpair⟩ := bind_eq_done.mp hperform
  obtain ⟨hforms, rfl⟩ := lift_eq_done.mp hbind
  obtain ⟨hresult, rfl⟩ := pure_eq_done.mp hpair
  obtain ⟨rfl, rfl⟩ := Prod.mk.inj hresult
  exact ⟨_, parameters, _, m₁.server, granted_of_ask hprepare, hforms, granted_of_ask hexecute, rfl⟩

/-- Whether a value shows a cell of a type: it is null if and only if the cell is null or its bytes
stand for no value, and otherwise it is the value that they stand for. -/
def PgType.Shows (t : PgType) (form : Form) (v : Value) : Prop :=
  (v = .null ↔ ∀ bytes, form = some bytes → ∀ w, ¬t.Carries bytes w) ∧
    ∀ bytes w, form = some bytes → t.Carries bytes w → v = w

/-- Every cell is shown by the value it is read as. -/
theorem PgType.shows_cell (t : PgType) (form : Form) : t.Shows form (t.cell form) := by
  constructor
  · cases form with
    | none => exact iff_of_true rfl nofun
    | some bytes =>
      rcases t.cell_cases bytes with hcarries | ⟨hnull, hnone⟩
      · refine iff_of_false (fun hnull => ?_) (fun hnone => hnone bytes rfl _ hcarries)
        rw [hnull] at hcarries
        cases hcarries.isNull
      · exact iff_of_true hnull fun _ hbytes => Option.some.inj hbytes ▸ hnone
  · rintro bytes w rfl hcarries
    simp [cell, hcarries.read?]

/-- A query that is done has one row for each row of the server, and in it a value for each cell
that shows the cell in the type of its column. -/
theorem query_cells {server : Server σ} {files : Files} {p : Profile} {sql : String}
    {values : List Value} {link link' : Link σ} {rs : ResultSet}
    (h : (connection server files p).query sql values link = (.done rs, link')) :
    ∃ prepared parameters done s,
      server.preparing sql link.server = (.granted prepared, s) ∧
      bindAll prepared.params values = .ok parameters ∧
      server.executing parameters s = (.granted done, link'.server) ∧
      rs.rows.length = done.rows.length ∧
      ∀ (i j : Nat) (forms : List Form) (name : String) (t : PgType) (form : Form),
        done.rows[i]? = some forms → prepared.columns[j]? = some (name, t) →
        forms[j]? = some form →
        ∃ (row : List Value) (v : Value), rs.rows[i]? = some row ∧ row[j]? = some v ∧
          t.Shows form v := by
  obtain ⟨prepared, parameters, done, s, hprepare, hbind, hexecute, rfl⟩ := granted_of_query h
  refine ⟨prepared, parameters, done, s, hprepare, hbind, hexecute, List.length_map _, ?_⟩
  intro i j forms name t form hforms hcolumn hform
  refine ⟨readRow prepared.columns forms, t.cell form, ?_, ?_, t.shows_cell form⟩
  · simp [answerOf, hforms]
  · rw [getElem?_readRow hcolumn, hform]
    rfl

/-- A sale: its number, its price, its unit, its article and its last day. -/
def saleCourse : Course where
  columns := [("number", .int4), ("price", .other "numeric"), ("unit", .other "char"),
    ("article", .other "uuid"), ("until", .timestamptz)]
  rows := [[some [0, 0, 0, 7], some [0, 2, 0, 0, 0, 0, 0, 1, 0, 12, 19, 136], some [107],
    some [17, 17, 17, 17, 17, 17, 17, 17, 17, 17, 17, 17, 17, 17, 17, 17],
    some [127, 255, 255, 255, 255, 255, 255, 255]]]

/-- What a query for the sale comes to. -/
def saleRun : Outcome ResultSet × Link Stage :=
  (connection Stage.server (fun _ => none) {}).query "SELECT * FROM sales" []
    ⟨{ courses := [saleCourse] }, .live⟩

/-- A sale with an article of no value: the number is shown all the same. -/
theorem query_cells_sale : ∃ rs link', saleRun = (.done rs, link') ∧
    ∃ (row : List Value) (v : Value), rs.rows[0]? = some row ∧ row[0]? = some v ∧
      PgType.int4.Shows (some [0, 0, 0, 7]) v := by
  have hrun : saleRun = (.done _, _) := rfl
  refine ⟨_, _, hrun, ?_⟩
  obtain ⟨prepared, parameters, done, s, hprepare, hbind, hexecute, -, hcells⟩ := query_cells hrun
  cases hprepare
  cases hbind
  cases hexecute
  exact hcells 0 0 _ _ _ _ rfl rfl rfl

/-- A price of 12.5, a unit of one letter, the number of an article and a day that never comes are
no null cells, but all that the answer has for them is null. -/
theorem isNull_saleRun :
    (match saleRun.1 with
      | .done rs => rs.rows.map (List.map Value.isNull)
      | _ => []) = [[false, true, true, true, true]] := by
  decide +kernel

end SqlCompose.Postgres
