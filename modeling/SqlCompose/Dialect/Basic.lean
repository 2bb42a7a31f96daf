import SqlCompose.Error
import SqlCompose.Text.Blank

/-!
# Dialects

A dialect settles what an expression leaves open: how identifiers are quoted, how parameters are
marked, which values stand for truth, and how rows are skipped and limited.
-/

namespace SqlCompose

/-- A family of database engines. -/
inductive Dialect where
  /-- The server that pages with `OFFSET` and needs an ordering for it. -/
  | sqlServer
  /-- The same server before it had `OFFSET`. -/
  | sqlServerLegacy
  /-- The engine that pages with `OFFSET` and needs no ordering. -/
  | postgres
  /-- The engine that pages with `limit`. -/
  | mySql
deriving DecidableEq, Repr

/-- How rows are skipped and limited. -/
inductive Paging where
  /-- An `OFFSET` clause after the ordering, which some engines require. -/
  | offsetFetch (requiresOrder : Bool)
  /-- `TOP` in front of the columns, and a numbered subquery to skip rows. -/
  | rowNumber
  /-- A `limit` clause after the ordering. -/
  | limit
deriving DecidableEq, Repr

/-- How parameters are marked. -/
inductive PlaceholderStyle where
  /-- One mark for all parameters. -/
  | positional (mark : String)
  /-- A mark with the index, counted from zero. -/
  | named (mark : String)
  /-- A mark with the index, counted from one. -/
  | numbered (mark : String)
deriving DecidableEq, Repr

namespace Dialect

/-- All dialects. -/
def all : List Dialect := [.sqlServer, .sqlServerLegacy, .postgres, .mySql]

/-- The name of a dialect. -/
def name : Dialect → String
  | .sqlServer => "sqlserver"
  | .sqlServerLegacy => "sqlserver-legacy"
  | .postgres => "postgres"
  | .mySql => "mysql"

/-- The dialect with a name. -/
def ofName? (name : String) : Option Dialect := all.find? fun d => d.name == name

/-- The provider names that stand for a dialect. -/
def providers : Dialect → List String
  | .sqlServer => ["sqlserver", "mssql", "system.data.sqlclient", "microsoft.data.sqlclient"]
  | .sqlServerLegacy => ["sqlserver-legacy", "mssql2008", "sqlserver2008"]
  | .postgres => ["postgres", "postgresql", "pg", "npgsql"]
  | .mySql => ["mysql", "mariadb", "mysql.data.mysqlclient", "mysqlconnector"]

/-- The dialect of a provider; blanks around the name and the case of its letters are ignored. -/
def ofProvider (provider : String) : Except QueryError Dialect :=
  let name := Text.asciiLower (String.ofList (Text.trim provider.toList))
  match all.find? fun d => d.providers.contains name with
  | some d => .ok d
  | none => .error (.unknownProvider provider)

/-! ## Identifiers -/

/-- The mark in front of an identifier. -/
def openQuote : Dialect → Char
  | .sqlServer | .sqlServerLegacy => '['
  | .postgres => '"'
  | .mySql => Char.ofNat 96

/-- The mark behind an identifier; within the identifier it is written twice. -/
def closeQuote : Dialect → Char
  | .sqlServer | .sqlServerLegacy => ']'
  | .postgres => '"'
  | .mySql => Char.ofNat 96

/-- The characters of a quoted identifier. -/
def quoteChars (d : Dialect) (name : List Char) : List Char :=
  d.openQuote :: Text.doubling d.closeQuote name ++ [d.closeQuote]

/-- A quoted identifier. -/
def quote (d : Dialect) (name : String) : String := String.ofList (d.quoteChars name.toList)

/-! ## Parameters and truth values -/

/-- How the dialect marks parameters. -/
def placeholderStyle : Dialect → PlaceholderStyle
  | .sqlServer | .sqlServerLegacy => .named "@p"
  | .postgres => .numbered "$"
  | .mySql => .positional "?"

/-- The mark of the parameter with an index, counted from zero. -/
def placeholder (d : Dialect) (index : Nat) : String :=
  match d.placeholderStyle with
  | .positional mark => mark
  | .named mark => mark ++ toString index
  | .numbered mark => mark ++ toString (index + 1)

/-- The value bound for a truth value. -/
def boolValue (d : Dialect) (b : Bool) : Value :=
  match d with
  | .postgres => .bool b
  | _ => .int (if b then 1 else 0)

/-- A value as the dialect binds it. -/
def param (d : Dialect) : Value → Value
  | .bool b => d.boolValue b
  | v => v

/-- The predicate that holds always, or never. -/
def truth (d : Dialect) (b : Bool) : String :=
  match d with
  | .postgres => if b then "TRUE" else "FALSE"
  | _ => if b then "1=1" else "1=0"

/-- How the dialect skips and limits rows. -/
def paging : Dialect → Paging
  | .sqlServer => .offsetFetch true
  | .sqlServerLegacy => .rowNumber
  | .postgres => .offsetFetch false
  | .mySql => .limit

end Dialect

end SqlCompose
