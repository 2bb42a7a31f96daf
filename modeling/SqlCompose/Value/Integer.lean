import SqlCompose.Text.Ascii
import SqlCompose.Text.Blank
import SqlCompose.Value.Basic

/-!
# Values read as integers

Truth values count as zero and one. A floating-point number counts if it has no fraction, and is
brought into the range of sixty-four bits. A text counts if it spells an integer of that range,
apart from blanks around it.
-/

namespace SqlCompose

/-- The nearest integer within the range of a word of sixty-four bits. -/
def clampInt64 (n : Int) : Int64 :=
  if n < -0x8000000000000000 then Int64.minValue
  else if 0x8000000000000000 ≤ n then Int64.maxValue
  else Int64.ofInt n

/-- An integer as a word of sixty-four bits, if it is in range. -/
def toInt64? (n : Int) : Option Int64 :=
  if -0x8000000000000000 ≤ n ∧ n < 0x8000000000000000 then some (Int64.ofInt n) else none

/-- The integer that a text spells, if it is in the range of sixty-four bits. -/
def readInt64? (text : List Char) : Option Int64 := (Text.readInt? text).bind toInt64?

/-- A value as an integer. -/
def Value.asInt64? : Value → Option Int64
  | .int i => some i
  | .bool b => some (if b then 1 else 0)
  | .float x => x.toInt?.map clampInt64
  | .text s => readInt64? (Text.trim s.toList)
  | _ => none

end SqlCompose
