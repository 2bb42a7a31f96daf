import SqlCompose.Binary.Notation
import SqlCompose.Json.Basic

/-!
# JSON text

`write` puts a value on one line without blanks; `writeIndented` gives every item and member a
line of its own, two blanks deeper than the bracket around it. Control characters, the quotation
mark and the backslash are escaped in strings, and nothing else is.

The layout and the notation of numbers are those of release 1 of `serde_json`.
-/

namespace SqlCompose.Json

/-! ## Scalars -/

/-- A character as it stands in a string. -/
def escape (c : Char) : List Char :=
  if c = '"' then ['\\', '"']
  else if c = '\\' then ['\\', '\\']
  else if c = '\n' then ['\\', 'n']
  else if c = '\r' then ['\\', 'r']
  else if c = '\t' then ['\\', 't']
  else if c.toNat = 8 then ['\\', 'b']
  else if c.toNat = 12 then ['\\', 'f']
  else if c.toNat < 32 then ['\\', 'u'] ++ Text.hexPadded 4 c.toNat
  else [c]

/-- A string with its quotation marks. -/
def quote (s : String) : String :=
  String.ofList ('"' :: s.toList.flatMap escape ++ ['"'])

/-- A number. -/
def Number.write : Number → String
  | .int n _ => String.ofList (Text.signedDecimal n)
  | .float x _ => x.write .json

/-! ## One line -/

mutual

/-- A value on one line. -/
def write : Json → String
  | .null => "null"
  | .bool b => if b then "true" else "false"
  | .number n => n.write
  | .string s => quote s
  | .array items => "[" ++ ",".intercalate (writeItems items) ++ "]"
  | .object members => "\x7b" ++ ",".intercalate (writeMembers members) ++ "\x7d"

/-- The texts of the items of an array. -/
def writeItems : List Json → List String
  | [] => []
  | item :: items => item.write :: writeItems items

/-- The texts of the members of an object. -/
def writeMembers : List (String × Json) → List String
  | [] => []
  | (name, value) :: members => (quote name ++ ":" ++ value.write) :: writeMembers members

end

/-! ## One line for each item -/

/-- A line break and the blanks of a nesting depth. -/
def newline (depth : Nat) : String := "\n" ++ String.ofList (List.replicate (2 * depth) ' ')

mutual

/-- A value over several lines, at a nesting depth. -/
def writeAt (depth : Nat) : Json → String
  | .null => "null"
  | .bool b => if b then "true" else "false"
  | .number n => n.write
  | .string s => quote s
  | .array [] => "[]"
  | .array (item :: items) =>
    let lines := writeAt (depth + 1) item :: writeItemsAt (depth + 1) items
    "[" ++ newline (depth + 1) ++ ("," ++ newline (depth + 1)).intercalate lines ++
      newline depth ++ "]"
  | .object [] => "\x7b\x7d"
  | .object ((name, value) :: members) =>
    let lines :=
      (quote name ++ ": " ++ writeAt (depth + 1) value) :: writeMembersAt (depth + 1) members
    "\x7b" ++ newline (depth + 1) ++ ("," ++ newline (depth + 1)).intercalate lines ++
      newline depth ++ "\x7d"

/-- The texts of the items of an array, at a nesting depth. -/
def writeItemsAt (depth : Nat) : List Json → List String
  | [] => []
  | item :: items => writeAt depth item :: writeItemsAt depth items

/-- The texts of the members of an object, at a nesting depth. -/
def writeMembersAt (depth : Nat) : List (String × Json) → List String
  | [] => []
  | (name, value) :: members =>
    (quote name ++ ": " ++ writeAt depth value) :: writeMembersAt depth members

end

/-- A value over several lines. -/
def writeIndented (json : Json) : String := json.writeAt 0

end SqlCompose.Json
