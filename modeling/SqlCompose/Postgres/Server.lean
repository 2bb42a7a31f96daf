import SqlCompose.Error
import SqlCompose.Postgres.Kind

/-!
# Servers

A server is known by what it answers to a client: whether it offers to secure the connection, how
it greets an account, and what comes of a statement that is first prepared and then executed.

Nothing is assumed of the answers but that they are whole messages of the protocol: a server is any
function of its state.
-/

namespace SqlCompose.Postgres

/-- What a server answers to a request. -/
inductive Answer (α : Type) where
  /-- It grants the request. -/
  | granted (a : α)
  /-- It lets the client down. -/
  | denied (fault : ServerFault)

/-- How a server greets an account. -/
inductive Greeting where
  /-- It is ready for statements. -/
  | ready
  /-- It asks for the password. -/
  | passwordWanted
deriving DecidableEq, Repr

/-- What a server has found out about a statement. -/
structure Prepared where
  /-- The types of the parameters. -/
  params : List PgType
  /-- The columns of the answer with their types. -/
  columns : List (String × PgType)

/-- A parameter or a cell in its binary form; one that is null has none. -/
abbrev Form : Type := Option (List UInt8)

/-- What comes of a statement. -/
structure Completion where
  /-- The rows. -/
  rows : List (List Form)
  /-- The number of rows it has affected. -/
  affected : UInt64

/-- A server with states of a type. -/
structure Server (σ : Type) where
  /-- Whether it offers to secure the connection. -/
  securing : σ → Bool × σ
  /-- How it greets an account that is to use a database. -/
  greeting : (user database : String) → σ → Answer Greeting × σ
  /-- Whether it takes a password. -/
  password : String → σ → Answer Unit × σ
  /-- What it finds out about a statement. -/
  preparing : String → σ → Answer Prepared × σ
  /-- What comes of the statement it has prepared, with parameters. -/
  executing : List Form → σ → Answer Completion × σ

end SqlCompose.Postgres
