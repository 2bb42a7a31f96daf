import SqlCompose.Proofs.Session.Members
import SqlCompose.Proofs.Session.Refusal

/-!
# Insertion into the caller's variable

An insertion works on a variable of the caller: the row in it is converted and sent, and the row with
the key that the database has generated is put there at the very end (`Repository.addInPlace`). So
the variable holds what it held unless the insertion succeeds, and then its record is the old one
with only the field of the key replaced by the first cell of the answer (`add_allOrNothing`). A row
that is not converted never reaches the connection. All this holds of rows of every type whose JSON
form round-trips, of which no more is known than how it is written as JSON and read from it.
-/

namespace SqlCompose

/-! ## Operations next to a variable -/

namespace Run

variable {σ α β : Type}

/-- What the variable holds. -/
def current : Run (σ × β) β := fun (s, b) => (.done b, s, b)

/-- Put a value into the variable. -/
def assign (b : β) : Run (σ × β) Unit := fun (s, _) => (.done (), s, b)

/-- An operation that knows nothing of the variable. -/
def beside (x : Run σ α) : Run (σ × β) α := fun (s, b) => ((x s).1, (x s).2, b)

/-- Whether an operation puts into a variable what another one results in, and leaves the variable
alone if there is no result. -/
def Stores (place : Run (σ × β) Unit) (x : Run σ β) (b : β) : Prop :=
  ∀ s, place (s, b) = ((x s).1.forget, (x s).2, (x s).1.getD b)

namespace Stores

variable {b : β}

/-- Putting a value into the variable stores it. -/
theorem assign (a : β) : Stores (σ := σ) (Run.assign a) (pure a) b := fun _ => rfl

/-- A variable holds the result if it is what was there. -/
theorem done : Stores (σ := σ) (pure ()) (pure b) b := fun _ => rfl

/-- A failure stores nothing. -/
theorem fail (e : QueryError) : Stores (σ := σ) (Run.fail e) (Run.fail e) b := fun _ => rfl

/-- An operation that starts by looking at the variable finds there what it holds. -/
theorem current_bind {place : β → Run (σ × β) Unit} {x : Run σ β} (h : Stores (place b) x b) :
    Stores (Run.current >>= place) x b := h

/-- A computation in front of both operations stops both or neither. -/
theorem lift_bind {r : Except QueryError α} {place : α → Run (σ × β) Unit} {x : α → Run σ β}
    (h : ∀ a, r = .ok a → Stores (place a) (x a) b) :
    Stores (Run.lift r >>= place) (Run.lift r >>= x) b := by
  cases hr : r with
  | error e => exact fail e
  | ok a => exact h a hr

/-- The result of a computation is put into the variable if there is one. -/
theorem lift (r : Except QueryError β) : Stores (σ := σ) (Run.lift r >>= Run.assign) (Run.lift r) b := by
  cases r with
  | error e => exact fail e
  | ok a => exact assign a

/-- The same step on the connection in front of both operations stops both or neither. -/
theorem beside_bind {m : Run σ α} {place : α → Run (σ × β) Unit} {x : α → Run σ β}
    (h : ∀ a, Stores (place a) (x a) b) : Stores (m.beside >>= place) (m >>= x) b := by
  intro s
  show Run.andThen m.beside place (s, b) = _
  simp only [bind, Run.andThen, beside]
  rcases m s with ⟨a | e | _, s'⟩
  · exact h a s'
  · rfl
  · rfl

end Stores

end Run

namespace Repository

variable {σ α : Type} (r : Repository σ) (T : RowType α)

/-- Insert the row that a variable holds, and put the row with its new key there. -/
def addInPlace : Run (Held σ × α) Unit := do
  let x ← Run.current
  let record ← Run.lift (T.toRecord r.entity x)
  let columns := r.insertedColumns
  let names := columns.map Column.name
  let values ← Run.lift (r.dialect.fieldValues record columns)
  match r.entity.key?.filter Column.isGenerated with
  | none =>
    let _ ← Run.beside (r.connection.executeNonQuery
      (Statement.insert r.dialect r.entity.table names none) values)
    pure ()
  | some k =>
    let result ← Run.beside (r.connection.execute
      (Statement.insert r.dialect r.entity.table names (some k.name)) values)
    let id ← Run.lift (r.generatedKey result)
    let x ← Run.lift (T.decode (.object (Fields.insert k.field (.ofInt64 id) record)))
    Run.assign x

/-- The values that an insertion binds. -/
def conversion (x : α) : Except QueryError (List Value) := do
  r.dialect.fieldValues (← T.toRecord r.entity x) r.insertedColumns

/-- The statement of an insertion, which answers with the key in a column if it is generated. -/
def insertion (generated : Option Column) : String :=
  Statement.insert r.dialect r.entity.table (r.insertedColumns.map Column.name)
    (generated.map Column.name)

/-- The row with the key of an answer. -/
def rekeyed (k : Column) (record : Fields Json) (result : ResultSet) : Except QueryError α := do
  T.decode (.object (Fields.insert k.field (.ofInt64 (← r.generatedKey result)) record))

variable {r T} {x : α} {h : Held σ} {fault : QueryError} {record : Fields Json}
  {values : List Value} {k : Column}

/-- The variable gets the row that an insertion results in, and keeps its own if there is none. -/
theorem stores_addAs (x : α) : Run.Stores (r.addInPlace T) (r.addAs T x) x := by
  refine .current_bind (.lift_bind fun record _ => .lift_bind fun values _ => ?_)
  cases r.entity.key?.filter Column.isGenerated with
  | none => exact .beside_bind fun _ => .done
  | some k =>
    exact .beside_bind fun result => .lift_bind fun id _ => .lift _

/-! ## How an insertion ends -/

/-- What a row binds is read off its record. -/
theorem conversion_of_record (hrecord : T.toRecord r.entity x = .ok record) :
    r.conversion T x = r.dialect.fieldValues record r.insertedColumns := by
  rw [conversion, hrecord]
  rfl

/-- A row that is not converted is not inserted. -/
theorem addAs_of_error (hfault : r.conversion T x = .error fault) :
    r.addAs T x h = (.failed fault, h) := by
  rcases bind_eq_error.mp hfault with hrecord | ⟨record, hrecord, hvalues⟩
  · exact Run.lift_bind_of_error hrecord _ h
  · exact (Run.lift_bind_of_ok hrecord _ h).trans (Run.lift_bind_of_error hvalues _ h)

section Converted

variable (hrecord : T.toRecord r.entity x = .ok record)
  (hvalues : r.dialect.fieldValues record r.insertedColumns = .ok values)
include hrecord hvalues

/-- Without a generated key, an insertion ends as its statement does. -/
theorem addAs_of_none (hk : r.entity.key?.filter Column.isGenerated = none) :
    r.addAs T x h = ((r.connection.executeNonQuery (r.insertion none) values h).1.map fun _ => x,
      (r.connection.executeNonQuery (r.insertion none) values h).2) := by
  refine (Run.lift_bind_of_ok hrecord _ h).trans ((Run.lift_bind_of_ok hvalues _ h).trans ?_)
  rw [hk]
  show Run.andThen (r.connection.executeNonQuery (r.insertion none) values) _ h = _
  rw [Run.andThen]
  rcases r.connection.executeNonQuery (r.insertion none) values h with ⟨_ | _ | _, h'⟩ <;> rfl

/-- With a generated key, an insertion goes on with the answer of its statement. -/
theorem addAs_of_generated (hk : r.entity.key?.filter Column.isGenerated = some k) :
    r.addAs T x h = ((r.connection.execute (r.insertion (some k)) values h).1.bind fun result =>
        .ofExcept (r.rekeyed T k record result),
      (r.connection.execute (r.insertion (some k)) values h).2) := by
  refine (Run.lift_bind_of_ok hrecord _ h).trans ((Run.lift_bind_of_ok hvalues _ h).trans ?_)
  rw [hk]
  show Run.andThen (r.connection.execute (r.insertion (some k)) values) _ h = _
  rw [Run.andThen]
  rcases r.connection.execute (r.insertion (some k)) values h with ⟨result | _ | _, h'⟩
  · show (Run.lift (r.generatedKey result) >>= _) h' =
      (Outcome.ofExcept (r.rekeyed T k record result), h')
    rw [rekeyed]
    cases hid : r.generatedKey result with
    | error fault => rfl
    | ok id => exact Run.lift_bind_of_ok rfl _ h'
  · rfl
  · rfl

end Converted

/-! ## What is put into the variable -/

/-- The record of a row is its JSON form, which is an object. -/
theorem toRecord_eq_ok {e : Entity} :
    T.toRecord e x = .ok record ↔ T.encode x = .ok (.object record) := by
  refine bind_eq_ok.trans ⟨?_, fun h => ⟨_, h, rfl⟩⟩
  rintro ⟨json, hjson, hrecord⟩
  cases json with
  | object members =>
    cases hrecord
    exact hjson
  | null | bool | number | string | array => cases hrecord

/-- The record and the values of a row that is converted. -/
theorem conversion_eq_ok : r.conversion T x = .ok values ↔
    ∃ record, T.toRecord r.entity x = .ok record ∧
      r.dialect.fieldValues record r.insertedColumns = .ok values := bind_eq_ok

/-- A row that is inserted has been converted. -/
theorem exists_record_of_addAs {x' : α} {h' : Held σ} (hadd : r.addAs T x h = (.done x', h')) :
    ∃ record values, T.toRecord r.entity x = .ok record ∧
      r.dialect.fieldValues record r.insertedColumns = .ok values := by
  cases hconversion : r.conversion T x with
  | error fault => cases (addAs_of_error hconversion).symm.trans hadd
  | ok values =>
    obtain ⟨record, hrecord, hvalues⟩ := conversion_eq_ok.mp hconversion
    exact ⟨record, values, hrecord, hvalues⟩

/-- A result has a first cell exactly if its first row has one. -/
theorem scalar?_eq_some {result : ResultSet} {cell : Value} :
    result.scalar? = some cell ↔ ∃ cells rows, result.rows = (cell :: cells) :: rows := by
  rw [ResultSet.scalar?]
  rcases result.rows with _ | ⟨_ | ⟨first, cells⟩, rows⟩ <;> simp [eq_comm]

/-- The generated key is the first cell of the first row as an integer. -/
theorem generatedKey_eq_ok {result : ResultSet} {id : Int64} :
    r.generatedKey result = .ok id ↔
      ∃ cell cells rows, result.rows = (cell :: cells) :: rows ∧ cell.asInt64? = some id := by
  have hscalar : r.generatedKey result = .ok id ↔ result.scalar?.bind Value.asInt64? = some id := by
    rw [generatedKey]
    cases result.scalar?.bind Value.asInt64? <;> simp
  rw [hscalar, Option.bind_eq_some_iff]
  constructor
  · rintro ⟨cell, hcell, hid⟩
    obtain ⟨cells, rows, hrows⟩ := scalar?_eq_some.mp hcell
    exact ⟨cell, cells, rows, hrows, hid⟩
  · rintro ⟨cell, cells, rows, hrows, hid⟩
    exact ⟨cell, scalar?_eq_some.mpr ⟨cells, rows, hrows⟩, hid⟩

/-- How a generated key reaches a row: the row is converted, and the statement of its insertion is
answered with an integer in the first cell of the first row. -/
inductive Answered (r : Repository σ) (T : RowType α) (k : Column) (x : α) (h h' : Held σ)
    (record : Fields Json) (id : Int64) : Prop
  | intro {values : List Value} {result : ResultSet} {cell : Value} {cells : List Value}
    {rows : List (List Value)} (hrecord : T.toRecord r.entity x = .ok record)
    (hvalues : r.dialect.fieldValues record r.insertedColumns = .ok values)
    (hanswer : r.connection.execute (r.insertion (some k)) values h = (.done result, h'))
    (hrows : result.rows = (cell :: cells) :: rows) (hid : cell.asInt64? = some id)

section Generated

variable {x' : α} {h' : Held σ} (hk : r.entity.key?.filter Column.isGenerated = some k)
include hk

/-- With a generated key, an insertion succeeds exactly if a key reaches the row and the record with
this key is read. -/
theorem addAs_eq_done_of_generated : r.addAs T x h = (.done x', h') ↔
    ∃ record id, r.Answered T k x h h' record id ∧
      T.decode (.object (Fields.insert k.field (.ofInt64 id) record)) = .ok x' := by
  constructor
  · intro hadd
    obtain ⟨record, values, hrecord, hvalues⟩ := exists_record_of_addAs hadd
    rw [addAs_of_generated hrecord hvalues hk] at hadd
    rcases hanswer : r.connection.execute (r.insertion (some k)) values h with ⟨result | _ | _, t⟩
    · rw [hanswer] at hadd
      obtain ⟨houtcome, rfl⟩ := Prod.mk.inj hadd
      cases hrekeyed : r.rekeyed T k record result with
      | error fault =>
        simp only [Outcome.bind, hrekeyed, Outcome.ofExcept] at houtcome
        cases houtcome
      | ok y =>
        simp only [Outcome.bind, hrekeyed, Outcome.ofExcept] at houtcome
        obtain rfl := Outcome.done.inj houtcome
        obtain ⟨id, hid, hdecode⟩ := bind_eq_ok.mp hrekeyed
        obtain ⟨cell, cells, rows, hrows, hcell⟩ := generatedKey_eq_ok.mp hid
        exact ⟨record, id, .intro hrecord hvalues hanswer hrows hcell, hdecode⟩
    · rw [hanswer] at hadd
      cases hadd
    · rw [hanswer] at hadd
      cases hadd
  · rintro ⟨record, id, ⟨hrecord, hvalues, hanswer, hrows, hid⟩, hdecode⟩
    have hrekeyed : r.rekeyed T k record _ = .ok x' :=
      bind_eq_ok.mpr ⟨id, generatedKey_eq_ok.mpr ⟨_, _, _, hrows, hid⟩, hdecode⟩
    rw [addAs_of_generated hrecord hvalues hk, hanswer]
    simp only [Outcome.bind, hrekeyed, Outcome.ofExcept]

end Generated

/-- The record of a row that is read back, with the field of a key replaced, is written as it is
read. -/
theorem toRecord_of_decode_insert {name : String} (hT : T.RoundTrips name)
    (hback : ∀ json, T.encode x = .ok json → T.decode json = .ok x)
    (hrecord : T.toRecord r.entity x = .ok record) (hname : T.HasField name) {json : Json} {x' : α}
    (hx' : T.decode (.object (Fields.insert name json record)) = .ok x') :
    T.toRecord r.entity x' = .ok (Fields.insert name json record) := by
  have hencode := toRecord_eq_ok.mp hrecord
  have hform : T.Form name (Fields.insert name json record) :=
    .set json (.row hencode (hback _ hencode)) hname
  exact toRecord_eq_ok.mpr (hT _ x' hform hx')

/-- Without a generated key, a row is inserted exactly if its statement is carried out, and stays as
it is. -/
theorem addAs_eq_done_of_none (hk : r.entity.key?.filter Column.isGenerated = none) {x' : α}
    {h' : Held σ} : r.addAs T x h = (.done x', h') ↔ x' = x ∧ ∃ values count,
      r.conversion T x = .ok values ∧
        r.connection.executeNonQuery (r.insertion none) values h = (.done count, h') := by
  constructor
  · intro hadd
    obtain ⟨record, values, hrecord, hvalues⟩ := exists_record_of_addAs hadd
    rw [addAs_of_none hrecord hvalues hk] at hadd
    rcases hcount : r.connection.executeNonQuery (r.insertion none) values h with
      ⟨count | _ | _, t⟩ <;> rw [hcount] at hadd
    · obtain ⟨houtcome, rfl⟩ := Prod.mk.inj hadd
      exact ⟨(Outcome.done.inj houtcome).symm, values, count,
        (conversion_of_record hrecord).trans hvalues, hcount⟩
    · cases hadd
    · cases hadd
  · rintro ⟨rfl, values, count, hconversion, hcount⟩
    obtain ⟨record, hrecord, hvalues⟩ := conversion_eq_ok.mp hconversion
    rw [addAs_of_none hrecord hvalues hk, hcount]
    rfl

/-- A run without a result that leaves the variable alone ends with what the variable held. -/
theorem exists_of_kept {p : Outcome Unit × Held σ × α}
    (hkept : ∀ o h' x', p = (o, h', x') → o.isDone = false → x' = x) (hp : p.1.isDone = false) :
    ∃ o h', p = (o, h', x) ∧ o.isDone = false := by
  obtain ⟨o, h', x'⟩ := p
  obtain rfl := hkept o h' x' rfl hp
  exact ⟨o, h', rfl, hp⟩

/-- The variable gets a row exactly if an insertion results in it. -/
theorem addInPlace_eq_done {x' : α} {h' : Held σ} :
    r.addInPlace T (h, x) = (.done (), h', x') ↔ r.addAs T x h = (.done x', h') := by
  rw [stores_addAs x h]
  rcases r.addAs T x h with ⟨y | e | _, t⟩ <;> simp [Outcome.getD, and_comm]

end Repository

/-- An insertion is all or nothing for the row that the caller holds. The row is of any type of
which the field of the key is one and whose JSON form round-trips there, and it is read back from
its own JSON; the shape of the repository plays no part. The caller's variable gets what the
insertion results in, and holds what it held if the insertion fails or breaks off, wherever that is.
Without a generated key it holds what it held anyway. With one, the insertion succeeds exactly if its
statement is answered with an integer in the first cell of the first row and the old record with only
the field of the key replaced by this integer is read as a row; then the caller holds that row, and
this record is its record. A row that is not converted leaves everything as it was, the journal of
the calls that have reached the connection included. -/
theorem add_allOrNothing {σ α : Type} (r : Repository σ) (T : RowType α) (x : α)
    (hkey : ∀ k, r.entity.key? = some k → T.HasField k.field ∧ T.RoundTrips k.field)
    (hback : ∀ json, T.encode x = .ok json → T.decode json = .ok x) (h : Held σ) :
    r.addInPlace T (h, x) =
      ((r.addAs T x h).1.forget, (r.addAs T x h).2, (r.addAs T x h).1.getD x) ∧
    (∀ o h' x', r.addInPlace T (h, x) = (o, h', x') → o.isDone = false → x' = x) ∧
    (r.entity.key?.filter Column.isGenerated = none → ∀ h' x',
      r.addInPlace T (h, x) = (.done (), h', x') ↔ x' = x ∧ ∃ values count,
        r.conversion T x = .ok values ∧
          r.connection.executeNonQuery (r.insertion none) values h = (.done count, h')) ∧
    (∀ k, r.entity.key?.filter Column.isGenerated = some k → ∀ h' x',
      (r.addInPlace T (h, x) = (.done (), h', x') → ∃ record id,
        r.Answered T k x h h' record id ∧
          T.decode (.object (Fields.insert k.field (.ofInt64 id) record)) = .ok x' ∧
          T.toRecord r.entity x' = .ok (Fields.insert k.field (.ofInt64 id) record)) ∧
      ∀ record id, r.Answered T k x h h' record id →
        T.decode (.object (Fields.insert k.field (.ofInt64 id) record)) = .ok x' →
          r.addInPlace T (h, x) = (.done (), h', x')) ∧
    ∀ fault, r.conversion T x = .error fault →
      r.addInPlace T (h, x) = (.failed fault, h, x) ∧
        ∀ t, r.journaled.addInPlace T (t, x) = (.failed fault, t, x) := by
  refine ⟨Repository.stores_addAs x h, ?_, ?_, ?_, ?_⟩
  · intro o h' x' hplace hdone
    rw [Repository.stores_addAs x h] at hplace
    rcases hadd : r.addAs T x h with ⟨y | e | _, t⟩ <;> rw [hadd] at hplace <;> cases hplace
    · cases hdone
    · rfl
    · rfl
  · intro hk h' x'
    rw [Repository.addInPlace_eq_done, Repository.addAs_eq_done_of_none hk]
  · intro k hk h' x'
    obtain ⟨hfield, hT⟩ := hkey k (Option.filter_eq_some_iff.mp hk).1
    rw [Repository.addInPlace_eq_done, Repository.addAs_eq_done_of_generated hk]
    refine ⟨?_, fun record id hanswered hdecode => ⟨record, id, hanswered, hdecode⟩⟩
    rintro ⟨record, id, hanswered, hdecode⟩
    have hrecord : T.toRecord r.entity x = .ok record := by
      cases hanswered
      assumption
    exact ⟨record, id, hanswered, hdecode,
      Repository.toRecord_of_decode_insert hT hback hrecord hfield hdecode⟩
  · intro fault hfault
    have hjournaled : r.journaled.conversion T x = .error fault := hfault
    refine ⟨?_, fun t => ?_⟩
    · rw [Repository.stores_addAs x h, Repository.addAs_of_error hfault]
      rfl
    · rw [Repository.stores_addAs x t, Repository.addAs_of_error hjournaled]
      rfl

/-! ## Users -/

namespace Sample

/-- A user with these members. -/
def userOf (id : Int64) (name : String) (email : Option String) (age : Int64) (active : Bool) :
    Datum :=
  .structure [("id", .ofInt64 id), ("name", .string name), ("email", email.elim .null .string),
    ("age", .ofInt64 age), ("active", .bool active)]

/-- Every user is read back from its own record. -/
theorem decode_userOf (id : Int64) (name : String) (email : Option String) (age : Int64)
    (active : Bool) : user.decode (userOf id name email age active).toJson =
      .ok (userOf id name email age active) := by
  have hrecord : (userOf id name email age active).toJson = .object
      [("active", .bool active), ("age", .ofInt64 age), ("email", email.elim .null .string),
        ("id", .ofInt64 id), ("name", .string name)] := rfl
  have hinteger (i : Int64) : Cell.decode ⟨.integer, false⟩ (.ofInt64 i) = .ok (.ofInt64 i) :=
    CellShape.decode_ofInt64 i
  have hname : Cell.decode ⟨.text, false⟩ (.string name) = .ok (.string name) := rfl
  have hemail : Cell.decode ⟨.text, true⟩ (email.elim .null .string) =
      .ok (email.elim .null .string) := by cases email <;> rfl
  have hactive : Cell.decode ⟨.truth, false⟩ (.bool active) = .ok (.bool active) := rfl
  rw [hrecord]
  simp [user, userOf, Shape.decode, Shape.decodeMembers, Shape.collect, hinteger, hname, hemail,
    hactive, bind, Except.bind, List.lookup_cons]

end Sample

/-- A new user, whose key is still to come. -/
def newUser : Datum := Sample.userOf 0 "Ada" none 36 true

/-- What a database answers to an insertion with the key 42. -/
def keyAnswer : ResultSet := ⟨[⟨"id", "int"⟩], [[.int 42]]⟩

/-- The key of users. -/
def userKey : Column := ⟨"id", "id", .int, true, true⟩

/-- The key of users is the number of a user. -/
theorem key?_scriptedUsers : scriptedUsers.entity.key? = some userKey := by
  with_unfolding_all rfl

/-- The record of that user. -/
theorem encode_newUser : Sample.user.rowType.encode newUser = .ok (.object
    [("active", .bool true), ("age", .ofInt64 36), ("email", .null), ("id", .ofInt64 0),
      ("name", .string "Ada")]) := rfl

/-- Any JSON object as a row. -/
def document : Shape := .cell ⟨.any, false⟩

/-- Whether the number of a user is in the range of thirty-two bits. -/
def hasShortKey : Datum → Bool
  | .structure members =>
    match members.lookup "id" with
    | some (.number (.int n _)) => decide (-0x80000000 ≤ n ∧ n < 0x80000000)
    | _ => false
  | .plain _ => false

/-- Users with a number of thirty-two bits. -/
def shortUser : RowType Datum :=
  Sample.user.rowType.restricted hasShortKey (.dataAccess "number out of range")

/-- What a database answers to an insertion with a key of more than thirty-two bits. -/
def longKeyAnswer : ResultSet := ⟨[⟨"id", "int"⟩], [[.int 0x100000000]]⟩

/-- A user gets the generated key and keeps everything else. A user stays as it is when the key does
not fit, and so does a JSON object when the connection breaks off. -/
theorem add_allOrNothing_newUser :
    (∃ h' x', scriptedUsers.addInPlace Sample.user.rowType
        (⟨{ results := [.succeed keyAnswer] }, false⟩, newUser) = (.done (), h', x') ∧
      x'.toRecord Sample.users = .ok [("active", .bool true), ("age", .ofInt64 36),
        ("email", .null), ("id", .ofInt64 42), ("name", .string "Ada")]) ∧
    (∃ o h', scriptedUsers.addInPlace shortUser
        (⟨{ results := [.succeed longKeyAnswer] }, false⟩, newUser) = (o, h', newUser) ∧
      o.isDone = false) ∧
    ∃ o h', scriptedUsers.addInPlace document.rowType
        (⟨{ results := [.breakOff] }, false⟩, .plain newUser.toJson) =
          (o, h', .plain newUser.toJson) ∧ o.isDone = false := by
  have hread : Sample.user.rowType.decode newUser.toJson = .ok newUser :=
    Shape.decode_rowType.mpr (Sample.decode_userOf 0 "Ada" none 36 true)
  have hshort : shortUser.decode newUser.toJson = .ok newUser :=
    RowType.decode_restricted.mpr ⟨hread, rfl⟩
  have hexact : Sample.user.rowType.RoundTrips "id" := Shape.roundTrips (by decide)
  refine ⟨?_, ?_, ?_⟩
  · have hkey : ∀ k, scriptedUsers.entity.key? = some k →
        Sample.user.rowType.HasField k.field ∧ Sample.user.rowType.RoundTrips k.field := by
      intro k hk
      obtain rfl : userKey = k := Option.some.inj (key?_scriptedUsers.symm.trans hk)
      exact ⟨⟨newUser, _, encode_newUser, hread, rfl⟩, hexact⟩
    obtain ⟨-, -, -, hgenerated, -⟩ := add_allOrNothing scriptedUsers Sample.user.rowType newUser hkey
      (fun json hjson => Shape.encode_rowType.mp hjson ▸ hread)
      ⟨{ results := [.succeed keyAnswer] }, false⟩
    have hvalues : scriptedUsers.conversion Sample.user.rowType newUser =
        .ok [.text "Ada", .null, .int 36, .int 1] := by with_unfolding_all rfl
    have hcell : (Value.int 42).asInt64? = some 42 := rfl
    have hanswered : scriptedUsers.Answered Sample.user.rowType userKey newUser
        ⟨{ results := [.succeed keyAnswer] }, false⟩ _ _ 42 :=
      .intro rfl hvalues rfl rfl hcell
    have hrekeyed := Shape.decode_rowType.mpr (Sample.decode_userOf 42 "Ada" none 36 true)
    have hplace := ((hgenerated userKey (by with_unfolding_all rfl) _ _).2 _ _ hanswered hrekeyed)
    exact ⟨_, _, hplace, rfl⟩
  · have hkey : ∀ k, scriptedUsers.entity.key? = some k →
        shortUser.HasField k.field ∧ shortUser.RoundTrips k.field := by
      intro k hk
      obtain rfl : userKey = k := Option.some.inj (key?_scriptedUsers.symm.trans hk)
      exact ⟨⟨newUser, _, encode_newUser, hshort, rfl⟩, hexact.restricted⟩
    obtain ⟨-, hkept, -⟩ := add_allOrNothing scriptedUsers shortUser newUser hkey
      (fun json hjson => (Shape.encode_rowType (s := Sample.user)).mp hjson ▸ hshort)
      ⟨{ results := [.succeed longKeyAnswer] }, false⟩
    have hrefused : (scriptedUsers.addInPlace shortUser
        (⟨{ results := [.succeed longKeyAnswer] }, false⟩, newUser)).1.isDone = false := by
      with_unfolding_all rfl
    exact Repository.exists_of_kept hkept hrefused
  · obtain ⟨-, hkept, -⟩ := add_allOrNothing scriptedUsers document.rowType (.plain newUser.toJson)
      (fun k _ => ⟨Shape.hasField_any false k.field, Shape.roundTrips rfl⟩)
      (fun json hjson => by
        rw [← Shape.encode_rowType.mp hjson]
        rfl) ⟨{ results := [.breakOff] }, false⟩
    have hbroken : (scriptedUsers.addInPlace document.rowType
        (⟨{ results := [.breakOff] }, false⟩, .plain newUser.toJson)).1.isDone = false := by
      with_unfolding_all rfl
    exact Repository.exists_of_kept hkept hbroken

end SqlCompose
