import SqlCompose.Dialect.Basic

/-!
# Tokens of SQL text

Statements are first put together from tokens that no dialect owns. A token knows whether it is an
identifier, a parameter or fixed text; `Dialect.write` turns tokens into the text of a dialect.
-/

namespace SqlCompose

/-- What stands for a null operand until the null tests are put in. -/
def nullMark : String := "<NULL>"

/-- The null literal. -/
def nullWord : String := "NULL"

/-- A token of SQL text. -/
inductive Token where
  /-- A quoted identifier. -/
  | ident (name : String)
  /-- The parameter with an index, counted from zero. -/
  | param (index : Nat)
  /-- An operator. -/
  | op (op : BinaryOp)
  /-- A null operand. -/
  | null
  /-- The predicate that holds always, or never. -/
  | truth (b : Bool)
  /-- Text that is the same in all dialects. -/
  | word (text : String)
deriving DecidableEq, Repr

namespace Dialect

/-- The text of a token. -/
def tokenText (d : Dialect) : Token → String
  | .ident name => d.quote name
  | .param index => d.placeholder index
  | .op op => op.text
  | .null => nullMark
  | .truth b => d.truth b
  | .word text => text

/-- The text of several tokens. -/
def write (d : Dialect) (tokens : List Token) : String := String.join (tokens.map d.tokenText)

end Dialect

/-- Several groups of tokens with commas between them. -/
def commaSeparated (groups : List (List Token)) : List Token :=
  List.intercalate [.word ", "] groups

end SqlCompose
