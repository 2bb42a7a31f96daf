/-!
# Tables of code points

A class of characters is given as a table of ranges of code points, both ends included, in
increasing order; membership is a search by halving.
-/

namespace SqlCompose.Text

/-- Whether a number lies in one of the ranges between two indices; the fuel bounds the
halvings. -/
def inRangesBetween (table : Array (Nat × Nat)) (n : Nat) : Nat → Nat → Nat → Bool
  | 0, _, _ => false
  | fuel + 1, low, high =>
    if low < high then
      let middle := (low + high) / 2
      let (first, last) := table.getD middle (0, 0)
      if n < first then inRangesBetween table n fuel low middle
      else if last < n then inRangesBetween table n fuel (middle + 1) high
      else true
    else false

/-- Whether a character lies in one of the ranges of a table. -/
def inRanges (table : Array (Nat × Nat)) (c : Char) : Bool :=
  inRangesBetween table c.toNat (table.size + 1) 0 table.size

end SqlCompose.Text
