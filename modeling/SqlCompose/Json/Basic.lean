import SqlCompose.Binary.Double
import SqlCompose.Fields

/-!
# JSON values

A number is an integer of the range from `-2 ^ 63` to `2 ^ 64 - 1` or a finite floating-point
number; the two are told apart even where they are equal in value. Objects list their members by
name.

These are the numbers and the order of members of release 1 of `serde_json` with its standard
options.
-/

namespace SqlCompose

/-- Whether an integer can be a JSON integer. -/
def Json.isWord (n : Int) : Bool := 
  decide (-0x8000000000000000 ≤ n ∧ n < 0x10000000000000000)

/-- A JSON number. -/
inductive Json.Number where
  /-- An integer that a signed or an unsigned word of sixty-four bits holds. -/
  | int (n : Int) (in_range : Json.isWord n = true)
  /-- A finite floating-point number. -/
  | float (x : Double) (finite : x.isFinite = true)
deriving DecidableEq

/-- A JSON value. -/
inductive Json where
  /-- The null value. -/
  | null
  /-- A truth value. -/
  | bool (b : Bool)
  /-- A number. -/
  | number (n : Json.Number)
  /-- A string. -/
  | string (s : String)
  /-- A list of values. -/
  | array (items : List Json)
  /-- Members under names. -/
  | object (members : List (String × Json))

namespace Json

instance : Inhabited Json := ⟨.null⟩

/-! ## Numbers -/

namespace Number

/-- The number as a signed word, if it is an integer of that range. -/
def toInt64? : Number → Option Int64
  | .int n _ => if n < 0x8000000000000000 then some (Int64.ofInt n) else none
  | .float _ _ => none

/-- The nearest floating-point number. -/
def toDouble : Number → Double
  | .int n _ => Double.ofInt n
  | .float x _ => x

end Number

/-- A signed 64-bit integer fits a word, so a number written from one is kept as an integer. -/
theorem isWord_toInt (i : Int64) : isWord i.toInt = true := by
  have h₁ := i.le_toInt
  have h₂ := i.toInt_lt
  simp only [isWord, decide_eq_true_eq]
  omega

/-- A signed word as a number. -/
def ofInt64 (i : Int64) : Json := .number (.int i.toInt (isWord_toInt i))

/-- An integer as a number; one outside the range of JSON integers is null. -/
def ofInt (n : Int) : Json := if h : isWord n = true then .number (.int n h) else .null

/-- A floating-point number as a number; one that is not finite is null. -/
def ofDouble (x : Double) : Json :=
  if h : x.isFinite = true then .number (.float x h) else .null

/-- An object with these members, a later one replacing an earlier one of its name. -/
def ofMembers (members : List (String × Json)) : Json := .object (Fields.ofList members)

/-! ## Asking -/

/-- Whether a value is null. -/
def isNull : Json → Bool
  | .null => true
  | _ => false

/-- The string of a string value. -/
def asString? : Json → Option String
  | .string s => some s
  | _ => none

/-- The truth value of a truth value. -/
def asBool? : Json → Option Bool
  | .bool b => some b
  | _ => none

/-- The signed word of an integer value. -/
def asInt64? : Json → Option Int64
  | .number n => n.toInt64?
  | _ => none

/-- The floating-point number nearest to a number value. -/
def asDouble? : Json → Option Double
  | .number n => some n.toDouble
  | _ => none

end Json

end SqlCompose
