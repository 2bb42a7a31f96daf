import SqlCompose.Calendar.Writing
import SqlCompose.Json.Writing
import SqlCompose.Text.Diagnostic
import SqlCompose.Value.Basic

/-!
# Values in diagnostics

Diagnostics name the variant of every value and quote its texts, so that two values that differ
are written differently.
-/

namespace SqlCompose

open Text (diagnose)

mutual

/-- A JSON value in diagnostics. -/
def Json.diagnostic : Json → String
  | .null => "Null"
  | .bool b => "Bool(" ++ (if b then "true" else "false") ++ ")"
  | .number n => "Number(" ++ n.write ++ ")"
  | .string s => "String(" ++ diagnose s ++ ")"
  | .array items => "Array [" ++ ", ".intercalate (Json.diagnosticItems items) ++ "]"
  | .object members =>
    "Object \x7b" ++ ", ".intercalate (Json.diagnosticMembers members) ++ "\x7d"

/-- The items of a JSON array in diagnostics. -/
def Json.diagnosticItems : List Json → List String
  | [] => []
  | item :: items => item.diagnostic :: Json.diagnosticItems items

/-- The members of a JSON object in diagnostics. -/
def Json.diagnosticMembers : List (String × Json) → List String
  | [] => []
  | (name, value) :: members =>
    (diagnose name ++ ": " ++ value.diagnostic) :: Json.diagnosticMembers members

end

namespace Value

mutual

/-- A value in diagnostics. -/
def diagnostic : Value → String
  | .null => "Null"
  | .bool b => "Bool(" ++ (if b then "true" else "false") ++ ")"
  | .int i => "Int(" ++ toString i.toInt ++ ")"
  | .float x => "Float(" ++ x.write .diagnostic ++ ")"
  | .text s => "Text(" ++ diagnose s ++ ")"
  | .bytes b => "Bytes([" ++ ", ".intercalate (b.map fun byte => toString byte.toNat) ++ "])"
  | .date d => "Date(" ++ String.ofList d.write ++ ")"
  | .dateTime t => "DateTime(" ++ String.ofList (t.write 'T' .asNeeded) ++ ")"
  | .timestamp t => "TimestampTz(" ++ String.ofList (t.write 'T' .asNeeded) ++ "Z)"
  | .json j => "Json(" ++ j.diagnostic ++ ")"
  | .list items => "List([" ++ ", ".intercalate (diagnosticItems items) ++ "])"
  | .record fields => "Record(\x7b" ++ ", ".intercalate (diagnosticFields fields) ++ "\x7d)"

/-- Several values in diagnostics. -/
def diagnosticItems : List Value → List String
  | [] => []
  | item :: items => item.diagnostic :: diagnosticItems items

/-- Named values in diagnostics. -/
def diagnosticFields : List (String × Value) → List String
  | [] => []
  | (name, value) :: fields =>
    (diagnose name ++ ": " ++ value.diagnostic) :: diagnosticFields fields

end

end Value

end SqlCompose
