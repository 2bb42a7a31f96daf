import SqlCompose.Text.Ascii
import SqlCompose.Text.Upper

/-!
# Lexemes of predicate text

A predicate text is cut into words, numbers, quoted texts, placeholders and signs; blanks and
comments are dropped. `Lexeme.text` writes a lexeme in its normal form.
-/

namespace SqlCompose.Predicate

/-! ## Quoted texts -/

/-- How a quoted text is introduced. -/
inductive TextForm where
  /-- Between apostrophes. -/
  | plain
  /-- Between quotation marks. -/
  | quotation
  /-- Of national characters, behind `N`. -/
  | national
  /-- With escapes, behind `E`. -/
  | escaped
  /-- With escapes for code points, behind `U&`. -/
  | unicode
  /-- Of hexadecimal digits, behind `X`. -/
  | hexadecimal
  /-- Of bits, behind `B` and between marks of this kind. -/
  | bits (mark : Char)
  /-- Between dollar signs with this tag. -/
  | dollar (tag : String)
deriving DecidableEq, Repr

/-- The apostrophe. -/
def apostrophe : Char := Char.ofNat 39

/-- The content of a quoted text with its marks written twice. A mark behind a backslash and a pair
of marks stay as they are. -/
def escapeMarks (mark : Char) : Bool → List Char → List Char
  | _, [] => []
  | true, c :: rest =>
    if c = mark then c :: escapeMarks mark true rest else c :: escapeMarks mark (c == '\\') rest
  | false, [c] => if c = mark then [c, c] else [c]
  | false, c :: d :: rest =>
    if c = mark then
      if d = mark then c :: d :: escapeMarks mark false rest
      else c :: c :: escapeMarks mark false (d :: rest)
    else c :: escapeMarks mark (c == '\\') (d :: rest)

/-- A text between two marks. -/
def between (opening : String) (content : List Char) (closing : String) : String :=
  opening ++ String.ofList content ++ closing

/-- A character of a text behind `E`. -/
def escapeChar (c : Char) : List Char :=
  if c = apostrophe then ['\\', c]
  else if c = '\\' then ['\\', '\\']
  else if c = '\n' then ['\\', 'n']
  else if c = '\t' then ['\\', 't']
  else if c = '\r' then ['\\', 'r']
  else [c]

/-- A character of a text behind `U&`. -/
def escapeCodePoint (c : Char) : List Char :=
  if c = apostrophe then [c, c]
  else if c = '\\' then ['\\', '\\']
  else if c.toNat < 128 then [c]
  else
    let digits := (Text.hexPadded 4 c.toNat).map Char.toUpper
    if c.toNat < 0x10000 then '\\' :: digits
    else '\\' :: '+' :: (Text.hexPadded 6 c.toNat).map Char.toUpper

/-- A quoted text in its normal form. -/
def TextForm.write (form : TextForm) (content : String) : String :=
  let cs := content.toList
  match form with
  | .plain => between "'" (escapeMarks apostrophe false cs) "'"
  | .quotation => between "\"" (escapeMarks '"' false cs) "\""
  | .national => between "N'" cs "'"
  | .escaped => between "E'" (cs.flatMap escapeChar) "'"
  | .unicode => between "U&'" (cs.flatMap escapeCodePoint) "'"
  | .hexadecimal => between "X'" cs "'"
  | .bits mark => "B" ++ String.singleton mark ++ content ++ String.singleton mark
  | .dollar tag => "$" ++ tag ++ "$" ++ content ++ "$" ++ tag ++ "$"

/-! ## Names -/

/-- A name, and the mark it was quoted with. -/
structure Name where
  /-- The name itself. -/
  text : String
  /-- The opening mark. -/
  mark : Option Char := none
deriving DecidableEq, Repr

/-- A name with the marks it was written with. -/
def Name.write (n : Name) : String :=
  match n.mark with
  | none => n.text
  | some '[' => "[" ++ n.text ++ "]"
  | some mark =>
    between (String.singleton mark) (escapeMarks mark false n.text.toList) (String.singleton mark)

/-- A path of names. -/
def writePath (path : List Name) : String := ".".intercalate (path.map Name.write)

/-! ## Lexemes -/

/-- A lexeme of a predicate text. -/
inductive Lexeme where
  /-- A word: a name or a keyword. -/
  | word (name : Name)
  /-- A number, and whether it is marked as a long one. -/
  | number (digits : String) (long : Bool)
  /-- A quoted text. -/
  | quoted (form : TextForm) (content : String)
  /-- A placeholder. -/
  | placeholder (text : String)
  /-- A sign that the language knows. -/
  | sign (text : String)
  /-- A run of operator characters that is no sign the language knows. -/
  | custom (text : String)
deriving DecidableEq, Repr

namespace Lexeme

/-- The keyword a lexeme may stand for, in upper case; only bare words are keywords. -/
def keyword? : Lexeme → Option String
  | .word ⟨text, none⟩ => some (Text.upper text)
  | _ => none

/-- Whether a lexeme may stand for a keyword. -/
def isKeyword (k : String) (l : Lexeme) : Bool := l.keyword? == some k

/-- A number in its normal form. -/
def writeNumber (digits : String) (long : Bool) : String := if long then digits ++ "L" else digits

/-- A lexeme in its normal form. -/
def text : Lexeme → String
  | .word name => name.write
  | .number digits long => writeNumber digits long
  | .quoted form content => form.write content
  | .placeholder text | .sign text | .custom text => text

end Lexeme

end SqlCompose.Predicate
