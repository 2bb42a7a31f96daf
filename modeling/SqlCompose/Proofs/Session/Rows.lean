import SqlCompose.Proofs.Dialect.RowStatement
import SqlCompose.Proofs.Session.Refusal

/-!
# What operations on a row bind

An operation on a row is held back, and nothing is asked of the connection, or it sends one
statement (`rowOperation_binds`). The statement is read back from its text: it sets or compares the
columns that the operation is about, in their order, and the value bound for a placeholder is the
one of the column that stands with it. Columns, values and placeholders come from different places;
that they are aligned is what is proved here.
-/

namespace SqlCompose

/-! ## Computations on all items of a list -/

section MapM

variable {α β : Type} {f : α → Except QueryError β}

/-- A computation on all items that succeeds has one result for each item, in order. -/
theorem forall₂_of_mapM {as : List α} {bs : List β} (h : as.mapM f = .ok bs) :
    List.Forall₂ (fun a b => f a = .ok b) as bs := by
  induction as generalizing bs with
  | nil =>
    cases h
    exact .nil
  | cons a as ih =>
    rw [List.mapM_cons] at h
    obtain ⟨b, hb, hrest⟩ := bind_eq_ok.mp h
    obtain ⟨bs, hbs, hcons⟩ := bind_eq_ok.mp hrest
    cases hcons
    exact .cons hb (ih hbs)

/-- A computation on all items that fails failed on one of them. -/
theorem exists_of_mapM_eq_error {as : List α} {fault : QueryError} (h : as.mapM f = .error fault) :
    ∃ a ∈ as, f a = .error fault := by
  induction as with
  | nil => cases h
  | cons a as ih =>
    rw [List.mapM_cons] at h
    rcases bind_eq_error.mp h with ha | ⟨b, -, hrest⟩
    · exact ⟨a, List.mem_cons_self, ha⟩
    · obtain ⟨a', ha', hfault⟩ := ih (bind_ok_eq_error.mp hrest)
      exact ⟨a', List.mem_cons_of_mem a ha', hfault⟩

end MapM

/-! ## Statements that are asked for -/

namespace Connection

variable {σ α β : Type}

/-- How an operation went on from a state, if all it has to do with the connection is to run a
statement: it has made a call to open, the statement, or both, and on a connection that is open and
can be used the statement alone. -/
structure Asks (c : Connection σ) (statement : Call) (x : JournaledRun σ α)
    (h : Held (σ × List Event)) (events : List Event) : Prop where
  journal : (x h).2.inner.2 = h.inner.2 ++ events
  calls : events.map (·.call) ∈ [[], [.opening], [statement], [.opening, statement]]
  sent : h.poisoned = false → c.isOpen h.inner.1 = true → events.map (·.call) = [statement]

variable (c : Connection σ)

/-- An operation that holds the connection for a statement, whatever the connection does. -/
theorem asks_hold (statement : Call) (x : Run σ α) (h : Held (σ × List Event)) :
    ∃ events, c.Asks statement (Held.hold (c.onOpen statement x)) h events := by
  obtain ⟨⟨s, log⟩, poisoned⟩ := h
  cases poisoned with
  | true => exact ⟨[], by rw [Held.hold_of_poisoned, List.append_nil], by simp, nofun⟩
  | false =>
    cases hs : c.isOpen s with
    | true =>
      refine ⟨[⟨statement, true, (x s).1.forget, c.isOpen (x s).2⟩], ?_, by simp, fun _ _ => rfl⟩
      rw [Held.hold_of_usable, c.onOpen_of_open log hs]
      simp [noting, hs]
    | false =>
      have hnever {events : List Event} : (false : Bool) = false → c.isOpen s = true →
          events.map (·.call) = [statement] := by simp [hs]
      rcases hrun : c.opening s with ⟨_ | fault | _, t⟩
      · refine ⟨[⟨.opening, false, .done (), c.isOpen t⟩,
          ⟨statement, c.isOpen t, (x t).1.forget, c.isOpen (x t).2⟩], ?_, by simp, hnever⟩
        rw [Held.hold_of_usable, c.onOpen_of_closed log hs]
        simp [bind, Run.andThen, noting, hs, hrun]
      · refine ⟨[⟨.opening, false, .failed fault, c.isOpen t⟩], ?_, by simp, hnever⟩
        rw [Held.hold_of_usable, c.onOpen_of_closed log hs]
        simp [bind, Run.andThen, noting, hs, hrun]
      · refine ⟨[⟨.opening, false, .broken, c.isOpen t⟩], ?_, by simp, hnever⟩
        rw [Held.hold_of_usable, c.onOpen_of_closed log hs]
        simp [bind, Run.andThen, noting, hs, hrun]

/-- A query asks for its statement and for nothing else but to open. -/
theorem asks_execute (sql : String) (params : List Value) (h : Held (σ × List Event)) :
    ∃ events, c.Asks (.query sql params) (c.journaled.execute sql params) h events :=
  c.asks_hold (.query sql params) (c.query sql params) h

/-- A modification asks for its statement and for nothing else but to open. -/
theorem asks_executeNonQuery (sql : String) (params : List Value) (h : Held (σ × List Event)) :
    ∃ events, c.Asks (.modify sql params) (c.journaled.executeNonQuery sql params) h events :=
  c.asks_hold (.modify sql params) (c.modify sql params) h

variable {c}

/-- What comes after a statement and leaves the connection alone asks for nothing more. -/
theorem Asks.bind_quiet {statement : Call} {x : JournaledRun σ α} {f : α → JournaledRun σ β}
    {h : Held (σ × List Event)} {events : List Event} (hx : c.Asks statement x h events)
    (hf : ∀ a, Quiet (f a)) : c.Asks statement (x >>= f) h events := by
  obtain ⟨hjournal, hcalls, hsent⟩ := hx
  refine ⟨?_, hcalls, hsent⟩
  rw [Quiet.state_bind hf x h, hjournal]

/-- An operation that goes on with the result of a computation. -/
theorem Asks.lift {statement : Call} {x : Except QueryError α} {a : α} (hx : x = .ok a)
    {f : α → JournaledRun σ β} {h : Held (σ × List Event)} {events : List Event}
    (hf : c.Asks statement (f a) h events) : c.Asks statement (Run.lift x >>= f) h events := by
  rw [hx]
  exact hf

end Connection

/-! ## Operations on a row -/

/-- An operation on one row of a table. -/
inductive RowOperation where
  | get (key : Value)
  | add (x : Datum)
  | update (x : Datum)
  | remove (x : Datum)

namespace RowOperation

variable {σ : Type}

/-- Carry out an operation. -/
def perform (r : Repository σ) : RowOperation → Run (Held σ) Unit
  | .get key => (r.get key).void
  | .add x => (r.add x).void
  | .update x => (r.update x).void
  | .remove x => (r.remove x).void

/-- What the statement of an operation does to the row. -/
@[simp] def action : RowOperation → RowAction
  | .get _ => .selection
  | .add _ => .insertion
  | .update _ => .change
  | .remove _ => .removal

/-- The columns other than the key, in order of declaration. -/
def changed (e : Entity) : List Column := e.columns.filter fun c => !c.isKey

/-- The columns that an operation is about, in order of declaration and the key last. An insertion
leaves out a key that the database generates. -/
def columns (e : Entity) : RowOperation → List Column
  | .add _ => e.columns.filter fun c => !(c.isKey && c.isGenerated)
  | .update _ => changed e ++ e.key?.toList
  | .get _ | .remove _ => e.key?.toList

/-- The key that an operation asks the database for. -/
@[simp] def answer (e : Entity) : RowOperation → Option Column
  | .add _ => e.key?.filter Column.isGenerated
  | _ => none

/-- The value of a column: the key that is looked for, or what the column makes of its field in the
row that is written, where a missing field is null. -/
def value (r : Repository σ) : RowOperation → Column → Except QueryError Value
  | .get key, _ => .ok (r.dialect.param key)
  | .add x, c | .update x, c | .remove x, c => do
    let record ← x.toRecord r.entity
    let v ← c.valueOfJson ((Fields.get? record c.field).getD .null)
    .ok (r.dialect.param v)

/-- Why an operation may have no statement. -/
inductive HeldBack (r : Repository σ) : RowOperation → Prop
  /-- No row has the key that is looked for. -/
  | vacant {key : Value} (h : Repository.isVacant key = true) : HeldBack r (.get key)
  /-- There is nothing to change besides the key. -/
  | unchanging {x : Datum} (h : changed r.entity = []) :
    HeldBack r (.update x)
  /-- There is no key to find the row by. -/
  | keyless {op : RowOperation} (hop : op.action ≠ .insertion) (h : r.entity.key? = none) :
    HeldBack r op
  /-- What is to be inserted is no record. -/
  | formless {x : Datum} {fault : QueryError} (h : x.toRecord r.entity = .error fault) :
    HeldBack r (.add x)
  /-- A column has no value. -/
  | valueless {op : RowOperation} {c : Column} {fault : QueryError} (hc : c ∈ op.columns r.entity)
    (h : op.value r c = .error fault) : HeldBack r op

/-- Whether a statement with its parameters carries out an operation: it reads as what the operation
does, with the columns that the operation is about and placeholders counted along them, and the
value of each column is bound for its placeholder. -/
structure Binds (op : RowOperation) (r : Repository σ) (sql : String) (params : List Value) :
    Prop where
  reading : RowStatement.ofSegments (r.dialect.segments sql) =
    some ⟨op.action, r.entity.table,
      r.dialect.boundFrom 0 ((op.columns r.entity).map Column.name),
      (op.answer r.entity).map Column.name⟩
  placeholders : r.dialect.placeholders sql =
    (List.range params.length).map r.dialect.placeholder
  values : List.Forall₂ (fun c v => op.value r c = .ok v) (op.columns r.entity) params

/-- Every column that an operation is about has a value if the operation is carried out. -/
theorem Binds.exists_value {op : RowOperation} {r : Repository σ} {sql : String}
    {params : List Value} (h : op.Binds r sql params) {c : Column}
    (hc : c ∈ op.columns r.entity) : ∃ v, op.value r c = .ok v := by
  have hboth : List.Forall₂ (fun c v => (∃ v, op.value r c = .ok v) ∧ op.value r c = .ok v)
      (op.columns r.entity) params := h.values.imp fun c v hv => ⟨⟨v, hv⟩, hv⟩
  exact ((List.forall₂_and_left _ _).mp hboth).1 c hc

/-- Whether an operation is held back and leaves everything as it was, or asks for one statement
that carries it out. -/
def Settled (r : Repository σ) (op : RowOperation) (h : Held (σ × List Event)) : Prop :=
  (op.HeldBack r ∧ (op.perform r.journaled h).2 = h) ∨
    ∃ sql params statement events,
      (statement = .query sql params ∨ statement = .modify sql params) ∧
      op.Binds r sql params ∧ r.connection.Asks statement (op.perform r.journaled) h events

/-! ### What is asked of the connection -/

section Settled

variable {r : Repository σ} {h : Held (σ × List Event)} {op : RowOperation}

/-- An operation that fails before it comes to the connection is settled. -/
theorem settled_of_failed (hop : op.HeldBack r) {fault : QueryError} {α : Type}
    {x : JournaledRun σ α} (hx : x h = (.failed fault, h))
    (hrun : op.perform r.journaled = x.void) : Settled r op h := by
  refine .inl ⟨hop, ?_⟩
  have hvoid : x.void h = (.failed fault, h) := Run.bind_of_failed hx _
  rw [hrun, hvoid]

/-- An operation that has no need of the connection is settled. -/
theorem settled_of_quiet (hop : op.HeldBack r) (hrun : Quiet (op.perform r.journaled)) :
    Settled r op h :=
  .inl ⟨hop, hrun h⟩

/-- An operation that asks for the statement that carries it out is settled. -/
theorem settled_of_asks {sql : String} {params : List Value} (hop : op.Binds r sql params)
    {statement : Call} (hs : statement = .query sql params ∨ statement = .modify sql params)
    {α : Type} {x : JournaledRun σ α} {events : List Event}
    (hasks : r.connection.Asks statement x h events) (hrun : op.perform r.journaled = x.void) :
    Settled r op h := by
  refine .inr ⟨sql, params, statement, events, hs, hop, ?_⟩
  rw [hrun]
  exact hasks.bind_quiet fun _ => .done ()

end Settled

variable {r : Repository σ} {h : Held (σ × List Event)}

/-- The key of an entity that has one is the one required. -/
theorem requireKey_of_some {e : Entity} {k : Column} (hk : e.key? = some k) :
    e.requireKey = .ok k := by
  rw [Entity.requireKey, hk]

/-- Without a key an operation that needs one fails at once. -/
theorem settled_of_keyless {op : RowOperation} (hop : op.action ≠ .insertion)
    (hk : r.entity.key? = none) : Settled r op h := by
  have hkey : r.entity.requireKey = .error (.missingKey r.entity.table) := by
    rw [Entity.requireKey, hk]
  have hheld : op.HeldBack r := .keyless hop hk
  cases op with
  | add x => exact absurd rfl hop
  | get key => exact settled_of_failed hheld (Run.lift_bind_of_error hkey _ h) rfl
  | update x => exact settled_of_failed hheld (Run.lift_bind_of_error hkey _ h) rfl
  | remove x => exact settled_of_failed hheld (Run.lift_bind_of_error hkey _ h) rfl

/-- Looking for a row by a key is settled. -/
theorem settled_get (key : Value) : Settled r (.get key) h := by
  cases hk : r.entity.key? with
  | none => exact settled_of_keyless nofun hk
  | some k =>
    by_cases hvacant : Repository.isVacant key = true
    · exact settled_of_quiet (.vacant hvacant)
        ((Repository.quiet_get hvacant).bind fun _ => .done ())
    · have hbinds : (RowOperation.get key).Binds r
          (Statement.selectByKey r.dialect r.entity.table k.name) [r.dialect.param key] := by
        refine ⟨?_, r.dialect.placeholders_selectByKey r.entity.table k.name, ?_⟩
        · simpa [columns, hk] using r.dialect.read_selectByKey r.entity.table k.name
        · simp [columns, hk, value]
      obtain ⟨events, hasks⟩ := r.connection.asks_execute
        (Statement.selectByKey r.dialect r.entity.table k.name) [r.dialect.param key] h
      have hget : r.connection.Asks (.query (Statement.selectByKey r.dialect r.entity.table k.name)
          [r.dialect.param key]) (r.journaled.get key) h events := by
        refine .lift (requireKey_of_some hk) ?_
        rw [if_neg hvacant]
        exact hasks.bind_quiet fun _ => (Quiet.ofOutcome _).bind fun _ => .done _
      exact settled_of_asks hbinds (.inl rfl) hget rfl

/-- The row that an operation writes or removes. -/
def row? : RowOperation → Option Datum
  | .get _ => none
  | .add x | .update x | .remove x => some x

/-- The value of a column comes from the field of the record that is written. -/
theorem value_of_record (op : RowOperation) {x : Datum} (hop : op.row? = some x)
    {record : Fields Json} (hx : x.toRecord r.entity = .ok record) (c : Column) :
    op.value r c = r.dialect.fieldValue record c := by
  cases op with
  | get key => cases hop
  | add x | update x | remove x =>
    cases hop
    rw [value, hx]
    rfl

/-- A row that has no record has no value for any column. -/
theorem value_of_formless (op : RowOperation) {x : Datum} (hop : op.row? = some x)
    {fault : QueryError} (hx : x.toRecord r.entity = .error fault) (c : Column) :
    op.value r c = .error fault := by
  cases op with
  | get key => cases hop
  | add x | update x | remove x =>
    cases hop
    rw [value, hx]
    rfl

/-- Values that are computed one after the other are those of their columns. -/
theorem values_of_record (op : RowOperation) {x : Datum} (hop : op.row? = some x)
    {record : Fields Json} (hx : x.toRecord r.entity = .ok record) {cs : List Column}
    {params : List Value} (hvalues : r.dialect.fieldValues record cs = .ok params) :
    List.Forall₂ (fun c v => op.value r c = .ok v) cs params :=
  (forall₂_of_mapM hvalues).imp fun c _ hv => (value_of_record op hop hx c).trans hv

/-- The statement of an insertion, with one value for each inserted column. -/
theorem binds_add {x : Datum} {record : Fields Json} (hx : x.toRecord r.entity = .ok record)
    {params : List Value}
    (hvalues : r.dialect.fieldValues record r.insertedColumns = .ok params) :
    (RowOperation.add x).Binds r (Statement.insert r.dialect r.entity.table
      (r.insertedColumns.map Column.name)
      ((r.entity.key?.filter Column.isGenerated).map Column.name)) params where
  reading := r.dialect.read_insert r.entity.table _ _
  placeholders := by
    rw [r.dialect.placeholders_insert, List.length_map,
      (values_of_record (.add x) rfl hx hvalues).length_eq]
  values := values_of_record (.add x) rfl hx hvalues

/-- Inserting a row is settled. -/
theorem settled_add (x : Datum) : Settled r (.add x) h := by
  cases hx : x.toRecord r.entity with
  | error fault => exact settled_of_failed (.formless hx) (Run.lift_bind_of_error hx _ h) rfl
  | ok record =>
    cases hvalues : r.dialect.fieldValues record r.insertedColumns with
    | error fault =>
      obtain ⟨c, hc, hfault⟩ := exists_of_mapM_eq_error hvalues
      have hvalue := (value_of_record (.add x) rfl hx c).trans hfault
      have hfailed : r.journaled.add x h = (.failed fault, h) :=
        (Run.lift_bind_of_ok hx _ h).trans (Run.lift_bind_of_error hvalues _ h)
      exact settled_of_failed (.valueless hc hvalue) hfailed rfl
    | ok params =>
      have hbinds := binds_add hx hvalues
      have hkey : r.journaled.entity.key? = r.entity.key? := rfl
      cases hk : r.entity.key?.filter Column.isGenerated with
      | none =>
        rw [hk] at hbinds
        obtain ⟨events, hasks⟩ := r.connection.asks_executeNonQuery (Statement.insert r.dialect
          r.entity.table (r.insertedColumns.map Column.name) none) params h
        have hadd : r.connection.Asks (.modify (Statement.insert r.dialect r.entity.table
            (r.insertedColumns.map Column.name) none) params) (r.journaled.add x) h events := by
          refine .lift hx (.lift hvalues ?_)
          rw [hkey, hk]
          exact hasks.bind_quiet fun _ => .done x
        exact settled_of_asks hbinds (.inr rfl) hadd rfl
      | some k =>
        rw [hk] at hbinds
        obtain ⟨events, hasks⟩ := r.connection.asks_execute (Statement.insert r.dialect
          r.entity.table (r.insertedColumns.map Column.name) (some k.name)) params h
        have hadd : r.connection.Asks (.query (Statement.insert r.dialect r.entity.table
            (r.insertedColumns.map Column.name) (some k.name)) params) (r.journaled.add x) h
            events := by
          refine .lift hx (.lift hvalues ?_)
          rw [hkey, hk]
          exact hasks.bind_quiet fun _ => (Quiet.ofOutcome _).bind fun _ => Quiet.ofOutcome _
        exact settled_of_asks hbinds (.inl rfl) hadd rfl

/-- The statement of an update, with one value for each changed column and the key last. -/
theorem binds_update {x : Datum} {record : Fields Json} (hx : x.toRecord r.entity = .ok record)
    {k : Column} (hk : r.entity.key? = some k)
    (hne : changed r.entity ≠ []) {params : List Value} {key : Value}
    (hvalues : r.dialect.fieldValues record (changed r.entity) =
      .ok params) (hkey : r.dialect.fieldValue record k = .ok key) :
    (RowOperation.update x).Binds r (Statement.updateByKey r.dialect r.entity.table
      ((changed r.entity).map Column.name) k.name) (params ++ [key]) := by
  have hparams := values_of_record (.update x) rfl hx hvalues
  have hcolumns : (RowOperation.update x).columns r.entity =
      changed r.entity ++ [k] := by simp [columns, hk]
  refine ⟨?_, ?_, ?_⟩
  · have hnames : (changed r.entity).map Column.name ≠ [] := by
      simpa using hne
    have hread := r.dialect.read_updateByKey r.entity.table hnames k.name
    rwa [hcolumns, List.map_append]
  · rw [r.dialect.placeholders_updateByKey, List.length_map, hparams.length_eq, List.length_append,
      List.length_singleton]
  · rw [hcolumns]
    exact List.rel_append hparams (.cons ((value_of_record _ rfl hx k).trans hkey) .nil)

/-- Updating a row is settled. -/
theorem settled_update (x : Datum) : Settled r (.update x) h := by
  cases hk : r.entity.key? with
  | none => exact settled_of_keyless nofun hk
  | some k =>
    have hcolumns : (RowOperation.update x).columns r.entity =
        changed r.entity ++ [k] := by simp [columns, hk]
    have hmem : k ∈ (RowOperation.update x).columns r.entity := by simp [hcolumns]
    have hkey := requireKey_of_some hk
    by_cases hne : changed r.entity = []
    · have hquiet : Quiet (r.journaled.update x) :=
        Repository.quiet_update (List.isEmpty_iff.mpr hne)
      exact settled_of_quiet (.unchanging hne) (hquiet.bind fun _ => .done ())
    cases hx : x.toRecord r.entity with
    | error fault =>
      have hfailed : r.journaled.update x h = (.failed fault, h) :=
        (Run.lift_bind_of_ok hkey _ h).trans (Run.lift_bind_of_error hx _ h)
      exact settled_of_failed (.valueless hmem (value_of_formless _ rfl hx k)) hfailed rfl
    | ok record =>
      have hempty : ¬ (r.journaled.entity.columns.filter fun c => !c.isKey).isEmpty = true :=
        fun hnil => hne (List.isEmpty_iff.mp hnil)
      cases hvalues : r.dialect.fieldValues record (changed r.entity) with
      | error fault =>
        obtain ⟨c, hc, hfault⟩ := exists_of_mapM_eq_error hvalues
        have hvalue := (value_of_record (.update x) rfl hx c).trans hfault
        have hfailed : r.journaled.update x h = (.failed fault, h) := by
          refine (Run.lift_bind_of_ok hkey _ h).trans ((Run.lift_bind_of_ok hx _ h).trans ?_)
          rw [if_neg hempty]
          exact Run.lift_bind_of_error hvalues _ h
        exact settled_of_failed (.valueless (by simp [hcolumns, hc]) hvalue) hfailed rfl
      | ok params =>
        cases hv : r.dialect.fieldValue record k with
        | error fault =>
          have hvalue := (value_of_record (.update x) rfl hx k).trans hv
          have hfailed : r.journaled.update x h = (.failed fault, h) := by
            refine (Run.lift_bind_of_ok hkey _ h).trans ((Run.lift_bind_of_ok hx _ h).trans ?_)
            rw [if_neg hempty]
            exact (Run.lift_bind_of_ok hvalues _ h).trans (Run.lift_bind_of_error hv _ h)
          exact settled_of_failed (.valueless hmem hvalue) hfailed rfl
        | ok key =>
          obtain ⟨events, hasks⟩ := r.connection.asks_executeNonQuery
            (Statement.updateByKey r.dialect r.entity.table
              ((changed r.entity).map Column.name) k.name)
            (params ++ [key]) h
          have hupdate : r.connection.Asks (.modify (Statement.updateByKey r.dialect r.entity.table
              ((changed r.entity).map Column.name) k.name)
              (params ++ [key])) (r.journaled.update x) h events := by
            refine .lift hkey (.lift hx ?_)
            rw [if_neg hempty]
            exact .lift hvalues (.lift hv hasks)
          exact settled_of_asks (binds_update hx hk hne hvalues hv) (.inr rfl) hupdate rfl

/-- Removing a row is settled. -/
theorem settled_remove (x : Datum) : Settled r (.remove x) h := by
  cases hk : r.entity.key? with
  | none => exact settled_of_keyless nofun hk
  | some k =>
    have hcolumns : (RowOperation.remove x).columns r.entity = [k] := by simp [columns, hk]
    have hmem : k ∈ (RowOperation.remove x).columns r.entity := by simp [hcolumns]
    have hkey := requireKey_of_some hk
    cases hx : x.toRecord r.entity with
    | error fault =>
      have hfailed : r.journaled.remove x h = (.failed fault, h) :=
        (Run.lift_bind_of_ok hkey _ h).trans (Run.lift_bind_of_error hx _ h)
      exact settled_of_failed (.valueless hmem (value_of_formless _ rfl hx k)) hfailed rfl
    | ok record =>
      cases hv : r.dialect.fieldValue record k with
      | error fault =>
        have hvalue := (value_of_record (.remove x) rfl hx k).trans hv
        have hfailed : r.journaled.remove x h = (.failed fault, h) :=
          (Run.lift_bind_of_ok hkey _ h).trans
            ((Run.lift_bind_of_ok hx _ h).trans (Run.lift_bind_of_error hv _ h))
        exact settled_of_failed (.valueless hmem hvalue) hfailed rfl
      | ok v =>
        have hbinds : (RowOperation.remove x).Binds r
            (Statement.deleteByKey r.dialect r.entity.table k.name) [v] := by
          refine ⟨?_, r.dialect.placeholders_deleteByKey r.entity.table k.name, ?_⟩
          · simpa [hcolumns] using r.dialect.read_deleteByKey r.entity.table k.name
          · rw [hcolumns]
            exact .cons ((value_of_record _ rfl hx k).trans hv) .nil
        obtain ⟨events, hasks⟩ := r.connection.asks_executeNonQuery
          (Statement.deleteByKey r.dialect r.entity.table k.name) [v] h
        exact settled_of_asks hbinds (.inr rfl) (.lift hkey (.lift hx (.lift hv hasks))) rfl

end RowOperation

/-- An operation on a row is held back, for one of the reasons that there are, and leaves the
connection and its journal as they were, or all that it asks of the connection is one statement that
carries it out: read back, the statement is about the columns of the operation in their order, each
with the placeholder counted along them, and the parameters are the values of these columns. If a
column has no value, nothing is asked. -/
theorem rowOperation_binds {σ : Type} (r : Repository σ) (op : RowOperation)
    (h : Held (σ × List Event)) :
    ((op.HeldBack r ∧ (op.perform r.journaled h).2 = h) ∨
      ∃ sql params statement events,
        (statement = .query sql params ∨ statement = .modify sql params) ∧
        op.Binds r sql params ∧ r.connection.Asks statement (op.perform r.journaled) h events) ∧
    ∀ c ∈ op.columns r.entity, ∀ fault, op.value r c = .error fault →
      (op.perform r.journaled h).2 = h := by
  have hsettled : op.Settled r h := by
    cases op with
    | get key => exact RowOperation.settled_get key
    | add x => exact RowOperation.settled_add x
    | update x => exact RowOperation.settled_update x
    | remove x => exact RowOperation.settled_remove x
  refine ⟨hsettled, ?_⟩
  intro c hc fault hfault
  rcases hsettled with ⟨-, hsame⟩ | ⟨sql, params, statement, events, -, hbinds, -⟩
  · exact hsame
  · obtain ⟨v, hv⟩ := hbinds.exists_value hc
    rw [hfault] at hv
    cases hv

/-- Entries of a book; the key comes last and is generated, and the name of a column holds a quote
and a placeholder. -/
def book : Entity :=
  (Entity.ofTable "book").addMapped "a]@p1" "note" .text |>.addColumn "amount" .int
    |>.addGeneratedKey "nr" .int

/-- The book behind a scripted connection. -/
def scriptedBook : Repository Script :=
  ⟨Script.connection .sqlServer, book, .structure "Entry" []⟩

/-- An entry with this amount and no note. -/
def entry (amount : Json) : Datum := .structure [("amount", amount), ("nr", .ofInt64 3)]

/-- A row of a book whose column name holds a bracket and a placeholder: each value is bound for its
own placeholder. -/
theorem rowOperation_binds_entry :
    (∃ events, scriptedBook.connection.Asks
      (.modify "UPDATE [book] SET [a]]@p1] = @p0, [amount] = @p1 WHERE [nr] = @p2"
        [.null, .int 7, .int 3])
      ((RowOperation.update (entry (.ofInt64 7))).perform scriptedBook.journaled)
      ⟨({ isOpen := true }, []), false⟩ events) ∧
    ((RowOperation.add (entry (.string "seven"))).perform scriptedBook.journaled
      ⟨({}, []), false⟩).2 = ⟨({}, []), false⟩ := by
  constructor
  · have hjournal : ((RowOperation.update (entry (.ofInt64 7))).perform scriptedBook.journaled
        ⟨({ isOpen := true }, []), false⟩).2.inner.2.map (·.call) =
        [.modify "UPDATE [book] SET [a]]@p1] = @p0, [amount] = @p1 WHERE [nr] = @p2"
          [.null, .int 7, .int 3]] := by rfl
    rcases (rowOperation_binds scriptedBook (.update (entry (.ofInt64 7)))
      ⟨({ isOpen := true }, []), false⟩).1 with
      ⟨-, hsame⟩ | ⟨sql, params, statement, events, -, -, hasks⟩
    · rw [hsame] at hjournal
      cases hjournal
    · rw [hasks.journal, List.nil_append, hasks.sent rfl rfl] at hjournal
      obtain rfl := List.head_eq_of_cons_eq hjournal
      exact ⟨events, hasks⟩
  · have hvalue : (RowOperation.add (entry (.string "seven"))).value scriptedBook
        ⟨"amount", "amount", .int, false, false⟩ =
        .error (.unbindable (.fieldMismatch "amount" (.string "seven") "amount" .int)) := by rfl
    exact (rowOperation_binds scriptedBook (.add (entry (.string "seven"))) ⟨({}, []), false⟩).2 _
      (by decide) _ hvalue

end SqlCompose
