import SqlCompose.Calendar.Writing
import SqlCompose.Json.Writing
import SqlCompose.Value.Basic

/-!
# Values in messages

Texts stand as they are, bytes are only counted, and lists and records stand between braces.
-/

namespace SqlCompose.Value

mutual

/-- A value as messages show it. -/
def display : Value → String
  | .null => "NULL"
  | .bool b => if b then "true" else "false"
  | .int i => toString i.toInt
  | .float x => x.write .plain
  | .text s => s
  | .bytes b => "[" ++ toString b.length ++ " bytes]"
  | .date d => String.ofList d.write
  | .dateTime t => String.ofList (t.write ' ' .asNeeded)
  | .timestamp t => String.ofList (t.write ' ' .asNeeded) ++ " UTC"
  | .json j => j.write
  | .list items => "\x7b" ++ ", ".intercalate (displayItems items) ++ "\x7d"
  | .record fields => "\x7b" ++ ", ".intercalate (displayFields fields) ++ "\x7d"

/-- Several values as messages show them. -/
def displayItems : List Value → List String
  | [] => []
  | item :: items => item.display :: displayItems items

/-- Named values as messages show them. -/
def displayFields : List (String × Value) → List String
  | [] => []
  | (name, value) :: fields => (name ++ ": " ++ value.display) :: displayFields fields

end

end SqlCompose.Value
