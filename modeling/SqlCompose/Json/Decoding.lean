import SqlCompose.Json.Basic
import SqlCompose.Json.Writing
import SqlCompose.Text.Diagnostic

/-!
# JSON values read at a type

A decoder expects one kind of value and names what it found instead. Integers are accepted where
a floating-point number is expected, and not the other way round.

What is accepted where, and how a mismatch is worded, follow release 1 of `serde`.
-/

namespace SqlCompose

/-- What a decoder found. -/
inductive Json.Found where
  /-- The null value. -/
  | null
  /-- A truth value. -/
  | bool (b : Bool)
  /-- An integer. -/
  | integer (n : Int)
  /-- A floating-point number. -/
  | floating (x : Double)
  /-- A string. -/
  | string (s : String)
  /-- An array. -/
  | sequence
  /-- An object. -/
  | map

/-- Why a JSON value does not decode. -/
inductive Json.DecodeFault where
  /-- An object has no member of this name. -/
  | missingField (name : String)
  /-- A value of another kind stands where one was expected. -/
  | unexpectedType (found : Json.Found) (expected : String)
  /-- An integer is outside the range of the expected type. -/
  | outOfRange (n : Int) (expected : String)
  /-- An array has the wrong number of items. -/
  | wrongLength (length : Nat) (expected : String)

namespace Json

/-- What kind of value a JSON value is. -/
def found : Json → Found
  | .null => .null
  | .bool b => .bool b
  | .number (.int n _) => .integer n
  | .number (.float x _) => .floating x
  | .string s => .string s
  | .array _ => .sequence
  | .object _ => .map

/-- What was found, in words. -/
def Found.text : Found → String
  | .null => "null"
  | .bool b => "boolean `" ++ (if b then "true" else "false") ++ "`"
  | .integer n => "integer `" ++ toString n ++ "`"
  | .floating x => "floating point `" ++ x.write .json ++ "`"
  | .string s => "string " ++ Text.diagnose s
  | .sequence => "sequence"
  | .map => "map"

/-- A fault in words. -/
def DecodeFault.text : DecodeFault → String
  | .missingField name => "missing field `" ++ name ++ "`"
  | .unexpectedType found expected => "invalid type: " ++ found.text ++ ", expected " ++ expected
  | .outOfRange n expected =>
    "invalid value: integer `" ++ toString n ++ "`, expected " ++ expected
  | .wrongLength length expected =>
    "invalid length " ++ toString length ++ ", expected " ++ expected

/-! ## Decoders -/

/-- The fault of a value that is not of the expected kind. -/
def unexpected {α : Type} (json : Json) (expected : String) : Except DecodeFault α :=
  .error (.unexpectedType json.found expected)

/-- A signed word. -/
def decodeInt64 : Json → Except DecodeFault Int64
  | .number (.int n _) =>
    if n < 0x8000000000000000 then .ok (Int64.ofInt n) else .error (.outOfRange n "i64")
  | json => json.unexpected "i64"

/-- A byte. -/
def decodeByte : Json → Except DecodeFault UInt8
  | .number (.int n _) =>
    if 0 ≤ n ∧ n < 256 then .ok (UInt8.ofNat n.toNat) else .error (.outOfRange n "u8")
  | json => json.unexpected "u8"

/-- A floating-point number. -/
def decodeDouble : Json → Except DecodeFault Double
  | .number n => .ok n.toDouble
  | json => json.unexpected "f64"

/-- A string. -/
def decodeString : Json → Except DecodeFault String
  | .string s => .ok s
  | json => json.unexpected "a string"

/-- A truth value. -/
def decodeBool : Json → Except DecodeFault Bool
  | .bool b => .ok b
  | json => json.unexpected "a boolean"

/-- A value that may be null. -/
def decodeOption {α : Type} (decode : Json → Except DecodeFault α) :
    Json → Except DecodeFault (Option α)
  | .null => .ok none
  | json => (decode json).map some

/-- A string of bytes, written as an array of numbers. -/
def decodeBytes : Json → Except DecodeFault (List UInt8)
  | .array items => items.mapM decodeByte
  | json => json.unexpected "a sequence"

end Json

end SqlCompose
