import SqlCompose.Command.Basic
import SqlCompose.Command.Failure
import SqlCompose.Connection.Registry
import SqlCompose.Predicate.Reading
import SqlCompose.Session.Description
import SqlCompose.Session.Handle

/-!
# Commands carried out

A command that is carried out ends with what it prints or with a failure. A query that is run has
its columns described by the database if nobody has listed them; then it is compiled, run and its
connection closed.
-/

namespace SqlCompose

/-! ## Queries -/

namespace QueryRequest

/-- The name and the type of a column as it is listed; without a type it holds texts. -/
def splitColumn (listed : String) : String × String :=
  match Text.splitFirst [':'] listed.toList with
  | some (name, dataType) => (String.ofList name, String.ofList dataType)
  | none => (listed, "text")

/-- An entity with one more of the listed columns. -/
def addListed (e : Entity) (listed : String) : Except Failure Entity :=
  let (name, dataType) := splitColumn listed
  if name.isEmpty then .error ⟨"empty column name in --columns " ++ Text.diagnose listed, []⟩
  else .ok (e.addColumn name (.ofSqlType dataType))

/-- The entity that the listed columns make, if there are any. -/
def entity? (r : QueryRequest) : Except Failure (Option Entity) :=
  if r.columns.isEmpty then .ok none
  else (r.columns.foldlM addListed (Entity.ofTable r.table)).map some

/-- The predicate that a text spells. -/
def readFilter (d : Dialect) (text : String) : Except Failure Expr :=
  (d.readPredicate text).mapError fun e =>
    (Failure.ofError e).within ("invalid --filter " ++ Text.diagnose text)

/-- A handle with the rows in an order. -/
def withOrder (h : Handle) (o : OrderBy) : Handle :=
  if o.descending then h.orderByDescending o.column else h.orderBy o.column

/-- A handle with some columns selected. -/
def withSelection (h : Handle) : List String → Handle
  | [] => h
  | [column] => h.select (.column column) h.shape
  | columns => h.select (.columns columns) h.shape

/-- A handle with an operation that is asked for only if there is something to do it with. -/
def withOptional {α : Type} (f : Handle → α → Handle) (h : Handle) : Option α → Handle
  | none => h
  | some a => f h a

/-- The handle for a query over an entity. -/
def handle (r : QueryRequest) (d : Dialect) (e : Entity) : Except Failure Handle := do
  let predicate ← r.filter.mapM (readFilter d)
  let h := withOptional Handle.filter (.ofEntity e (.cell ⟨.any, false⟩)) predicate
  let h := withOptional withOrder h r.order
  let h := withOptional Handle.skip h r.skip
  let h := withOptional Handle.take h r.take
  .ok (withSelection h r.select)

/-- The query over an entity, compiled. -/
def compile (r : QueryRequest) (d : Dialect) (e : Entity) : Except Failure CompiledQuery := do
  let h ← r.handle d e
  let q := match r.wanted with
    | .rows => h.build d
    | .count => h.buildTerminal d .count none
    | .existence => h.buildTerminal d .any none
  q.mapError .ofError

/-- What a query answers with, as JSON. -/
def answer (r : QueryRequest) (e : Entity) (result : ResultSet) : Json :=
  match r.wanted with
  | .rows => .array ((result.records e).map .object)
  | .count => (result.scalar?.map Value.toJson).getD .null
  | .existence => .bool (decide (0 < result.rowCount))

end QueryRequest

/-! ## Tasks -/

/-- An operation on the state of a connection that ends with a result or fails. -/
abbrev Task (σ : Type) : Type → Type := ExceptT Failure (StateM σ)

namespace Task

variable {σ α : Type}

/-- The task that does nothing and has the result of a computation. -/
def ofExcept (r : Except Failure α) : Task σ α := ExceptT.mk (pure r)

/-- The end of a task with an outcome. -/
def ofOutcome : Outcome α → Except Failure α
  | .done a => .ok a
  | .failed e => .error (.ofError e)
  | .broken => .error ⟨"the connection broke off", []⟩

/-- An operation of a connection as a task. -/
def ofRun (x : Run σ α) : Task σ α := fun s =>
  let (o, s) := x s
  (ofOutcome o, s)

/-- An operation of a provider as a task. -/
def ofHeld (x : Run (Held σ) α) : Task σ α := fun s =>
  let (o, h) := x ⟨s, false⟩
  (ofOutcome o, h.inner)

/-- A task whose failure is the cause of another one. -/
def within (context : String) (x : Task σ α) : Task σ α := fun s =>
  let (r, s) := x s
  (r.mapError (Failure.within context), s)

end Task

/-! ## Commands -/

/-- What a command finds around it. -/
structure Surroundings (γ : Type) where
  /-- The text of the file of saved profiles, if there is one. -/
  profiles : Option String
  /-- The path of that file. -/
  path : String
  /-- The password for profiles that have none. -/
  password : String
  /-- The providers of connections. -/
  registry : Registry γ

namespace Command

/-- A profile with a password, which is another one only if the profile has none. -/
def withPassword (password : String) (p : Profile) : Profile :=
  if p.password.isEmpty then { p with password := password } else p

/-- The statement and the parameters of a query, a line for each. -/
def compileText (provider : String) (r : QueryRequest) : Except Failure String := do
  let d ← (Dialect.ofProvider provider).mapError .ofError
  let e := (← r.entity?).getD (Entity.ofTable r.table)
  let q ← r.compile d e
  .ok (q.sql ++ "\n" ++ (Json.array (q.params.map Value.toJson)).write ++ "\n")

/-- The lines of saved profiles. -/
def listing (profiles : List Profile) : String :=
  String.join (profiles.map fun p => p.name ++ "\t" ++ p.provider ++ "\t" ++ p.display ++ "\n")

/-- The entity of a query: as it is listed, or as the database describes it. -/
def findEntity {σ : Type} (c : Connection σ) (r : QueryRequest) : Task σ Entity := do
  match ← Task.ofExcept r.entity? with
  | some e => pure e
  | none => (Task.ofRun (c.describe r.table)).within ("Failed to describe table " ++ r.table)

/-- Run a query over a connection and print what it answers with. -/
def runOver {σ : Type} (c : Connection σ) (r : QueryRequest) : Task σ String := do
  let e ← findEntity c r
  let q ← Task.ofExcept (r.compile c.dialect e)
  let result ← Task.ofHeld do
    let result ← c.run q
    c.close
    pure result
  pure ((r.answer e result).writeIndented ++ "\n")

/-- Run a query over a saved connection. -/
def runSaved {σ : Type} (world : Surroundings (Connection σ)) (name : String) (r : QueryRequest) :
    Task σ String := do
  let p ← Task.ofExcept ((Profile.find world.profiles world.path name).mapError .ofProfileFault)
  let p := withPassword world.password p
  let c ← Task.ofExcept ((world.registry.connect p).mapError .ofError)
  runOver c r

/-- How the program is used. -/
def usage : String :=
  "Usage: sqlcompose compile [--dialect NAME] --table TABLE [OPTIONS]\n" ++
  "       sqlcompose run --connect NAME --table TABLE [OPTIONS]\n" ++
  "       sqlcompose connections\n" ++
  "Options: --columns NAME:TYPE,... --filter PREDICATE --order-by COLUMN\n" ++
  "         --order-by-desc COLUMN --skip N --take N --count --any --select COLUMN,...\n"

/-- Carry out a command. -/
def execute {σ : Type} (world : Surroundings (Connection σ)) : Command → Task σ String
  | .compile provider r => Task.ofExcept (compileText provider r)
  | .run name r => runSaved world name r
  | .connections =>
    Task.ofExcept (((Profile.load world.profiles).map listing).mapError .ofProfileFault)
  | .help => pure usage

end Command

end SqlCompose
