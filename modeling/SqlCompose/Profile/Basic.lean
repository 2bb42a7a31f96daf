import SqlCompose.Text.Ascii
import SqlCompose.Text.Search

/-!
# Connection profiles

A profile names a database server, the account to use there and how the connection is secured. The
connection string lists its parts as keywords with values; a value between apostrophes holds any
text, because apostrophes and backslashes in it follow a backslash.
-/

namespace SqlCompose

/-- How a connection is secured. -/
inductive SslMode where
  /-- Not at all. -/
  | disable
  /-- If the server can. -/
  | prefer
  /-- Always, whoever the server is. -/
  | require
  /-- Always, with a certificate of a trusted authority. -/
  | verifyAuthority
  /-- Always, with a certificate of a trusted authority for the name of the server. -/
  | verifyFull
deriving DecidableEq, Repr

namespace SslMode

/-- All modes. -/
def all : List SslMode := [.disable, .prefer, .require, .verifyAuthority, .verifyFull]

/-- The name of a mode in a saved profile. -/
def name : SslMode → String
  | .disable => "Disable"
  | .prefer => "Prefer"
  | .require => "Require"
  | .verifyAuthority => "VerifyCa"
  | .verifyFull => "VerifyFull"

/-- The mode with a name. -/
def ofName? (name : String) : Option SslMode := all.find? fun mode => mode.name == name

/-- The word for a mode in a connection string. -/
def keyword : SslMode → String
  | .disable => "disable"
  | .prefer => "prefer"
  | .require => "require"
  | .verifyAuthority => "verify-ca"
  | .verifyFull => "verify-full"

/-- Whether a mode asks for the certificate of the server to be verified. -/
def verifies : SslMode → Bool
  | .verifyAuthority | .verifyFull => true
  | _ => false

end SslMode

/-- A connection profile; without further ado it is that of a server on the same machine. -/
structure Profile where
  /-- The name under which the profile is saved. -/
  name : String := "Local PostgreSQL"
  /-- The provider that makes its connections. -/
  provider : String := "postgres"
  /-- The host of the server. -/
  host : String := "localhost"
  /-- The TCP number under which the server listens. -/
  tcpPort : UInt16 := 5432
  /-- The database. -/
  database : String := "postgres"
  /-- The account. -/
  username : String := "postgres"
  /-- The password of the account; it is empty as long as nobody has given it. -/
  password : String := ""
  /-- How connections are secured. -/
  sslMode : SslMode := .prefer
  /-- Whether any certificate will do, unless the mode asks for verification. -/
  acceptsAnyCertificate : Bool := false
  /-- The file with the certificates of trusted authorities; without it the system has them. -/
  authorityFile : Option String := none
deriving DecidableEq, Repr

namespace Profile

/-- The TCP number in decimal digits. -/
def tcpPortText (p : Profile) : String := String.ofList (Text.decimal p.tcpPort.toNat)

/-- The place that a profile leads to, for people to read. -/
def display (p : Profile) : String :=
  p.username ++ "@" ++ p.host ++ ":" ++ p.tcpPortText ++ "/" ++ p.database

/-! ## Connection strings -/

/-- The apostrophe. -/
def apostrophe : Char := Char.ofNat 39

/-- A text between apostrophes: its backslashes are doubled first, then its apostrophes get a
backslash. -/
def quoteValue (value : String) : String :=
  let doubled := Text.replaceAll ['\\'] ['\\', '\\'] value.toList
  let escaped := Text.replaceAll [apostrophe] ['\\', apostrophe] doubled
  String.ofList (apostrophe :: escaped ++ [apostrophe])

/-- The keywords of a connection string with their values as they are written. -/
def parameters (p : Profile) : List (String × String) := [
  ("host", quoteValue p.host), ("port", p.tcpPortText), ("dbname", quoteValue p.database),
  ("user", quoteValue p.username), ("password", quoteValue p.password),
  ("sslmode", p.sslMode.keyword), ("connect_timeout", "10")]

/-- The connection string of a profile. -/
def connectionString (p : Profile) : String :=
  " ".intercalate (p.parameters.map fun (keyword, value) => keyword ++ "=" ++ value)

end Profile

end SqlCompose
