import SqlCompose.Postgres.Server

/-!
# Servers that follow a stage plan

A staged server has its answers laid down: one greeting for every client, and one course for every
statement that is prepared, in order. It never secures a connection, takes every password, and
keeps the requests that have reached it.
-/

namespace SqlCompose.Postgres

/-- The course of one statement. -/
structure Course where
  /-- The types of the parameters. -/
  params : List PgType := []
  /-- The columns of the answer with their types. -/
  columns : List (String × PgType) := []
  /-- The rows of the answer. -/
  rows : List (List Form) := []
  /-- The number of rows the statement affects. -/
  affected : UInt64 := 0
  /-- What keeps it from being prepared. -/
  unprepared : Option ServerFault := none
  /-- What keeps it from being executed. -/
  unexecuted : Option ServerFault := none

/-- How every client is received. -/
inductive Reception where
  /-- Without a password. -/
  | trust
  /-- With a password. -/
  | password
  /-- Not at all. -/
  | refuse (message : String)
deriving DecidableEq, Repr

/-- A request that has reached a server. -/
inductive Request where
  /-- To secure the connection. -/
  | securing
  /-- To be greeted as an account that is to use a database. -/
  | greeting (user database : String)
  /-- To take a password. -/
  | password (password : String)
  /-- To prepare a statement. -/
  | preparing (sql : String)
  /-- To execute the prepared statement with parameters. -/
  | executing (values : List Form)

/-- The state of a staged server. -/
structure Stage where
  /-- How clients are received. -/
  reception : Reception := .trust
  /-- The courses of the statements to come. -/
  courses : List Course := []
  /-- The course of the statement that was prepared last. -/
  current : Course := {}
  /-- The requests so far, the first one first. -/
  requests : List Request := []

namespace Stage

/-- A server that has received a request. -/
def note (s : Stage) (request : Request) : Stage := { s with requests := s.requests ++ [request] }

/-- The answer to a request that a fault may keep from being granted. -/
def answer {α : Type} (fault : Option ServerFault) (a : α) : Answer α :=
  match fault with
  | none => .granted a
  | some fault => .denied fault

/-- How a client is greeted. -/
def greeting : Reception → Answer Greeting
  | .trust => .granted .ready
  | .password => .granted .passwordWanted
  | .refuse message => .denied (.refused message)

/-- The server that follows stage plans. -/
def server : Server Stage where
  securing s := (false, s.note .securing)
  greeting user database s := (greeting s.reception, s.note (.greeting user database))
  password word s := (.granted (), s.note (.password word))
  preparing sql s :=
    let course := s.courses.head?.getD {}
    (answer course.unprepared ⟨course.params, course.columns⟩,
      { s.note (.preparing sql) with courses := s.courses.drop 1, current := course })
  executing values s :=
    (answer s.current.unexecuted ⟨s.current.rows, s.current.affected⟩,
      s.note (.executing values))

end Stage

end SqlCompose.Postgres
