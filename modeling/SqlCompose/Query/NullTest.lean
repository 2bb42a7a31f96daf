import SqlCompose.Dialect.Token
import SqlCompose.Text.Search

/-!
# Null tests

Comparisons with a null operand are first written against a mark. A last pass over the text turns
them into null tests: equality becomes `IS NULL`, inequality becomes `IS NOT NULL`, and a
parenthesised inequality that stands alone becomes the negation of a null test. The pass reads
plain text, so it treats a mark within a quoted identifier like any other.
-/

namespace SqlCompose.NullTest

open Text (replaceAll contains splitOn splitLast)

/-- Equality with a null operand. -/
def equalsNull : List Char := BinaryOp.eq.text.toList ++ nullMark.toList

/-- Inequality with a null operand. -/
def differsFromNull : List Char := BinaryOp.ne.text.toList ++ nullMark.toList

/-- Whether a text holds an operator. -/
def hasOperator (text : List Char) : Bool :=
  BinaryOp.all.any fun op => contains op.text.toList text

/-- The text in front of `<> <NULL>)` taken apart at the parenthesis that opens a group with this
comparison alone: the text before the parenthesis, and the operand. A group that is negated
already does not count. -/
def soleOperand? (before : List Char) : Option (List Char × List Char) :=
  match splitLast (fun c => c == '(' || c == ')') before with
  | some (outside, mark, operand) =>
    if mark == '(' && !hasOperator operand && !("NOT ".toList.isSuffixOf outside) then
      some (outside, operand)
    else none
  | none => none

/-- The text up to and including `<> <NULL>)`, with a group of this comparison alone settled. -/
def settleGroup (before : List Char) : List Char :=
  match soleOperand? before with
  | some (outside, operand) =>
    outside ++ "NOT (".toList ++ operand ++ " IS NULL)".toList
  | none => before ++ differsFromNull ++ [')']

/-- Every group with an inequality alone settled; the last piece follows the last such group. -/
def settlePieces : List (List Char) → List Char
  | [] => []
  | [last] => last
  | before :: pieces => settleGroup before ++ settlePieces pieces

/-- A text with every parenthesised inequality that stands alone settled. -/
def settleGroups (text : List Char) : List Char :=
  settlePieces (splitOn (differsFromNull ++ [')']) text)

/-- The characters of a condition with its null tests put in. -/
def finishChars (text : List Char) : List Char :=
  let text := replaceAll equalsNull " IS NULL".toList text
  let text := settleGroups text
  let text := replaceAll differsFromNull " IS NOT NULL".toList text
  replaceAll nullMark.toList nullWord.toList text

/-- A condition with its null tests put in. -/
def finish (text : String) : String := String.ofList (finishChars text.toList)

end SqlCompose.NullTest
