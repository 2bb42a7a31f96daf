import SqlCompose.Connection.Basic
import SqlCompose.Postgres.Authority
import SqlCompose.Postgres.Binding
import SqlCompose.Postgres.Server

/-!
# Connections to PostgreSQL

A client opens a connection to a server by a profile: it reads the certificates it is to trust,
has the connection secured as the profile says, and gives its account. Every statement is prepared
first, so that its parameters go in the forms that the server expects. A server that closes the
connection leaves it lost: it is no longer open, but only closing or opening it lets go of it.

The order of requests is that of release 0.7 of `tokio-postgres`. What happens within a secured
session, the parts of a certificate and the network are left out: securing a connection is an answer
of the server.
-/

namespace SqlCompose.Postgres

/-! ## Faults while opening -/

/-- Why no session with a server begins. -/
inductive SessionFault where
  /-- The mode asks for a verification that the client does not know. -/
  | unknownMode
  /-- The mode asks for a secured connection and the server offers none. -/
  | unsecured
  /-- The server lets the client down. -/
  | denied (fault : ServerFault)

/-- A fault in words. -/
def SessionFault.message : SessionFault → String
  | .unknownMode =>
    "invalid connection string: invalid value for option " ++ String.ofList [Char.ofNat 96] ++
      "sslmode" ++ String.ofList [Char.ofNat 96]
  | .unsecured => "error performing TLS handshake: server does not support TLS"
  | .denied fault => ": ".intercalate (fault.text :: fault.report)

/-- Why a connection cannot be opened. -/
inductive OpeningFault where
  /-- There are no certificates to trust. -/
  | authority (fault : AuthorityFault)
  /-- No session begins. -/
  | session (fault : SessionFault)

/-- A fault in words. -/
def OpeningFault.message : OpeningFault → String
  | .authority fault => fault.message
  | .session fault => "Failed to connect to PostgreSQL: " ++ fault.message

/-! ## Sessions -/

/-- Whether a client has a session. -/
inductive Phase where
  /-- It has none. -/
  | idle
  /-- It has one. -/
  | live
  /-- It has one that the server has left. -/
  | lost
deriving DecidableEq, Repr

/-- A client and its server. -/
structure Link (σ : Type) where
  /-- The state of the server. -/
  server : σ
  /-- Whether the client has a session. -/
  phase : Phase := .idle

variable {σ : Type}

/-- Have a connection secured as a mode says. -/
def secure (server : Server σ) (mode : SslMode) (s : σ) : Except SessionFault Unit × σ :=
  match mode with
  | .disable => (.ok (), s)
  | .prefer => (.ok (), (server.securing s).2)
  | .require =>
    let (offered, s) := server.securing s
    (if offered then .ok () else .error .unsecured, s)
  | .verifyAuthority | .verifyFull => (.error .unknownMode, s)

/-- The outcome of a request that begins a session. -/
def Answer.begun {α : Type} : Answer α → Except SessionFault α
  | .granted a => .ok a
  | .denied fault => .error (.denied fault)

/-- Give the account of a profile, and its password if the server asks for it. -/
def identify (server : Server σ) (p : Profile) (s : σ) : Except SessionFault Unit × σ :=
  match server.greeting p.username p.database s with
  | (.granted .ready, s) => (.ok (), s)
  | (.granted .passwordWanted, s) =>
    let (answer, s) := server.password p.password s
    (answer.begun, s)
  | (.denied fault, s) => (.error (.denied fault), s)

/-- Begin a session by a profile. -/
def beginSession (server : Server σ) (p : Profile) (s : σ) : Except SessionFault Unit × σ :=
  match secure server p.sslMode s with
  | (.ok (), s) => identify server p s
  | (.error fault, s) => (.error fault, s)

/-- Read the certificates that a mode needs. -/
def checkAuthorities (files : Files) (p : Profile) : Except AuthorityFault Unit :=
  if p.sslMode = .disable then .ok () else (trusted files p).map fun _ => ()

/-- Begin a session by a profile, once the certificates are read. -/
def connect (server : Server σ) (files : Files) (p : Profile) (s : σ) :
    Except OpeningFault Unit × σ :=
  match checkAuthorities files p with
  | .error fault => (.error (.authority fault), s)
  | .ok () =>
    let (r, s) := beginSession server p s
    (r.mapError .session, s)

/-! ## Connections -/

/-- Open a connection, unless it is open. A connection that cannot be opened stays as it was. -/
def opening (server : Server σ) (files : Files) (p : Profile) : Run (Link σ) Unit := fun link =>
  if link.phase = .live then (.done (), link)
  else
    match connect server files p link.server with
    | (.ok (), s) => (.done (), ⟨s, .live⟩)
    | (.error fault, s) => (.failed (.dataAccess fault.message), ⟨s, link.phase⟩)

/-- Close a connection. -/
def closing : Run (Link σ) Unit := fun link => (.done (), { link with phase := .idle })

/-- Send a request within a session. -/
def ask {α : Type} (request : σ → Answer α × σ) : Run (Link σ) α := fun link =>
  match link.phase with
  | .idle => (.failed (.dataAccess "connection is not open"), link)
  | .lost => (.failed (.database .closed), link)
  | .live =>
    match request link.server with
    | (.granted a, s) => (.done a, ⟨s, .live⟩)
    | (.denied .closed, s) => (.failed (.database .closed), ⟨s, .lost⟩)
    | (.denied fault, s) => (.failed (.database fault), ⟨s, .live⟩)

/-- Prepare a statement and execute it with values in the forms of its parameters. -/
def perform (server : Server σ) (sql : String) (values : List Value) :
    Run (Link σ) (Prepared × Completion) := do
  let prepared ← ask (server.preparing sql)
  let forms ← Run.lift (bindAll prepared.params values)
  pure (prepared, ← ask (server.executing forms))

/-- The cells of a row in the columns of a statement. -/
def readRow : List (String × PgType) → List Form → List Value
  | [], _ => []
  | (_, t) :: columns, [] => t.cell none :: readRow columns []
  | (_, t) :: columns, form :: forms => t.cell form :: readRow columns forms

/-- The answer of a statement. -/
def answerOf (prepared : Prepared) (done : Completion) : ResultSet :=
  ⟨prepared.columns.map fun (name, t) => ⟨name, t.name⟩,
    done.rows.map (readRow prepared.columns)⟩

/-- The connection to a server by a profile. -/
def connection (server : Server σ) (files : Files) (p : Profile) : Connection (Link σ) where
  dialect := .postgres
  isOpen link := link.phase == .live
  opening := opening server files p
  closing := closing
  query sql values := do
    let (prepared, done) ← perform server sql values
    pure (answerOf prepared done)
  modify sql values := do
    let (_, done) ← perform server sql values
    pure done.affected

end SqlCompose.Postgres
