import SqlCompose.Text.Ascii
import SqlCompose.Toml.Quoted

/-!
# TOML documents written

A list of tables is written as an array of tables, one header for each of them and an empty line
between them; without tables it is an empty array. Keys that need no quotation marks have none. How
strings are written is a parameter.

The layout is that of release 0.8 of `toml`. Of the way in which it writes strings nothing is taken
as given but that the text spells the string; the quoting used here is one of those.
-/

namespace SqlCompose.Toml

/-- A value that fits on a line. -/
inductive Scalar where
  /-- A string. -/
  | string (s : String)
  /-- A natural number. -/
  | natural (n : Nat)
  /-- A truth value. -/
  | boolean (b : Bool)
deriving DecidableEq, Repr

section Writing

variable (quote : String → String)

/-- A value as it is written. -/
def Scalar.write : Scalar → String
  | .string s => quote s
  | .natural n => String.ofList (Text.decimal n)
  | .boolean true => "true"
  | .boolean false => "false"

/-- The lines of a table: each key with its value. -/
def writePairs (pairs : List (String × Scalar)) : String :=
  String.join (pairs.map fun (key, value) => key ++ " = " ++ value.write quote ++ "\n")

/-- A document whose only member is an array of tables. -/
def writeTables (key : String) (tables : List (List (String × Scalar))) : String :=
  if tables.isEmpty then key ++ " = []\n"
  else "\n".intercalate (tables.map fun pairs => "[[" ++ key ++ "]]\n" ++ writePairs quote pairs)

end Writing

end SqlCompose.Toml
