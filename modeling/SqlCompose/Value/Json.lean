import SqlCompose.Calendar.Writing
import SqlCompose.Value.Basic

/-!
# Values as JSON and back

Every value has a JSON form: bytes become an array of numbers, dates and moments become strings,
and a number that is not finite becomes null. Reading JSON back chooses the plainest variant, so
only null, truth values, integers, finite numbers, texts, lists and records come back as they
were.
-/

namespace SqlCompose.Value

open Calendar (DateTime)

/-- The JSON form of a moment of the universal clock, with its offset. -/
def universalText (t : DateTime) : String :=
  String.ofList (t.write 'T' .asNeeded ++ ['+', '0', '0', ':', '0', '0'])

mutual

/-- The JSON form of a value. -/
def toJson : Value → Json
  | .null => .null
  | .bool b => .bool b
  | .int i => Json.ofInt64 i
  | .float x => Json.ofDouble x
  | .text s => .string s
  | .bytes b => .array (b.map fun byte => Json.ofInt byte.toNat)
  | .date d => .string (String.ofList d.write)
  | .dateTime t => .string (String.ofList (t.write 'T' .asNeeded))
  | .timestamp t => .string (universalText t)
  | .json j => j
  | .list items => .array (toJsonItems items)
  | .record fields => .object (toJsonFields fields)

/-- The JSON forms of several values. -/
def toJsonItems : List Value → List Json
  | [] => []
  | item :: items => item.toJson :: toJsonItems items

/-- The JSON forms of named values. -/
def toJsonFields : List (String × Value) → List (String × Json)
  | [] => []
  | (name, value) :: fields => (name, value.toJson) :: toJsonFields fields

end

/-- The value of a JSON number: an integer if a signed word holds it. -/
def ofNumber (n : Json.Number) : Value :=
  match n.toInt64? with
  | some i => .int i
  | none => .float n.toDouble

mutual

/-- The plainest value of a JSON value. -/
def ofJson : Json → Value
  | .null => .null
  | .bool b => .bool b
  | .number n => ofNumber n
  | .string s => .text s
  | .array items => .list (ofJsonItems items)
  | .object members => .record (ofJsonMembers members)

/-- The plainest values of several JSON values. -/
def ofJsonItems : List Json → List Value
  | [] => []
  | item :: items => ofJson item :: ofJsonItems items

/-- The plainest values of named JSON values. -/
def ofJsonMembers : List (String × Json) → List (String × Value)
  | [] => []
  | (name, value) :: members => (name, ofJson value) :: ofJsonMembers members

end

end SqlCompose.Value
