import SqlCompose.Calendar.DateTime
import SqlCompose.Json.Basic

/-!
# Values

What a statement binds as a parameter and what a result cell holds. Lists and records occur only
as values that a program holds on to; a statement binds neither.
-/

namespace SqlCompose

open Calendar (Date DateTime)

/-- A bound or fetched value. -/
inductive Value where
  /-- The absent value. -/
  | null
  /-- A truth value. -/
  | bool (b : Bool)
  /-- An integer of sixty-four bits. -/
  | int (i : Int64)
  /-- A floating-point number. -/
  | float (x : Double)
  /-- A text. -/
  | text (s : String)
  /-- A string of bytes. -/
  | bytes (b : List UInt8)
  /-- A date. -/
  | date (d : Date)
  /-- A moment of a local clock. -/
  | dateTime (t : DateTime)
  /-- A moment of the universal clock. -/
  | timestamp (t : DateTime)
  /-- A JSON document. -/
  | json (j : Json)
  /-- Several values. -/
  | list (items : List Value)
  /-- Values under names. -/
  | record (fields : List (String × Value))

namespace Value

instance : Inhabited Value := ⟨.null⟩

/-- Whether a value is the absent one. -/
def isNull : Value → Bool
  | .null => true
  | _ => false

/-- The name of a value's variant. -/
def typeName : Value → String
  | .null => "null"
  | .bool _ => "bool"
  | .int _ => "int"
  | .float _ => "float"
  | .text _ => "text"
  | .bytes _ => "bytes"
  | .date _ => "date"
  | .dateTime _ => "datetime"
  | .timestamp _ => "timestamptz"
  | .json _ => "json"
  | .list _ => "list"
  | .record _ => "record"

/-- Whether a value can be bound as one parameter. -/
def isScalar : Value → Bool
  | .null | .list _ | .record _ => false
  | _ => true

/-- A record with these fields, a later one replacing an earlier one of its name. -/
def ofFields (pairs : List (String × Value)) : Value := .record (Fields.ofList pairs)

/-- The test on values holds of the null value alone. -/
theorem isNull_iff {v : Value} : v.isNull = true ↔ v = .null := by
  cases v <;> simp [isNull]

end Value

end SqlCompose
