import SqlCompose.Text.Ascii

/-!
# Strings of a TOML document

A basic string stands in quotation marks and has escapes, a literal string stands in apostrophes
and has none. With three marks on either side a string may hold line ends; a line end right after
the opening marks does not belong to it, and one or two marks may stand before the closing ones.
-/

namespace SqlCompose.Toml

/-! ## Characters -/

/-- Whether a character may stand on a line as it is. -/
def isPlain (c : Char) : Bool := c == '\t' || (!decide (c < ' ') && c != '\x7f')

/-- Whether a character stands for itself between quotation marks. -/
def isBasic (c : Char) : Bool := isPlain c && c != '"' && c != '\\'

/-- The apostrophe. -/
def apostrophe : Char := Char.ofNat 39

/-- Whether a character stands for itself between apostrophes. -/
def isLiteral (c : Char) : Bool := isPlain c && c != apostrophe

/-- Whether a character is a blank within a line. -/
def isSpace (c : Char) : Bool := c == ' ' || c == '\t'

/-- The text after a line end that comes next. -/
def lineEnd? : List Char → Option (List Char)
  | '\n' :: rest => some rest
  | '\r' :: '\n' :: rest => some rest
  | _ => none

/-! ## Escapes -/

/-- The character after a backslash that stands for one character. -/
def unescape? (c : Char) : Option Char :=
  if c = '"' ∨ c = '\\' then some c
  else if c = 'b' then some '\x08'
  else if c = 't' then some '\t'
  else if c = 'n' then some '\n'
  else if c = 'f' then some '\x0c'
  else if c = 'r' then some '\r'
  else none

/-- The character whose number hexadecimal digits spell. -/
def ofCode? (digits : List Char) : Option Char := do
  let n := (← digits.mapM Text.hexDigit?).foldl (fun n digit => n * 16 + digit) 0
  if n.isValidChar then some (Char.ofNat n) else none

/-- The escape that writes a character, or the character itself. -/
def escape (c : Char) : List Char :=
  if c = '"' ∨ c = '\\' then ['\\', c]
  else if c = '\x08' then ['\\', 'b']
  else if c = '\t' then ['\\', 't']
  else if c = '\n' then ['\\', 'n']
  else if c = '\x0c' then ['\\', 'f']
  else if c = '\r' then ['\\', 'r']
  else if isPlain c then [c]
  else '\\' :: 'u' :: (Text.asciiUpper (String.ofList (Text.hexPadded 4 c.toNat))).toList

/-! ## Styles -/

/-- How a string may be written. -/
inductive Style where
  /-- Between quotation marks. -/
  | basic
  /-- Between apostrophes. -/
  | literal
  /-- Between three quotation marks. -/
  | longBasic
  /-- Between three apostrophes. -/
  | longLiteral
deriving DecidableEq, Repr

/-- Whether at most two marks stand in a row in a text, with a number of them in front of it. -/
def isSparse (mark : Char) : Nat → List Char → Bool
  | _, [] => true
  | marks, c :: rest =>
    if c = mark then decide (marks < 2) && isSparse mark (marks + 1) rest else isSparse mark 0 rest

/-- The style of a string: the first one in which all its characters stand for themselves, or a
basic string with escapes, which is long if the string has line ends. -/
def style (s : List Char) : Style :=
  if s.all isBasic then .basic
  else if s.all isLiteral then .literal
  else if s.all (fun c => isBasic c || c == '"' || c == '\n') && isSparse '"' 0 s then .longBasic
  else if s.all (fun c => isPlain c || c == '\n') && isSparse apostrophe 0 s then .longLiteral
  else if s.contains '\n' then .longBasic
  else .basic

/-- A string between three quotation marks, with a number of them in front: line ends stand for
themselves, and so do two quotation marks in a row. -/
def escapeLong : Nat → List Char → List Char
  | _, [] => []
  | marks, c :: rest =>
    if c = '"' ∧ marks < 2 then c :: escapeLong (marks + 1) rest
    else if c = '\n' then c :: escapeLong 0 rest
    else escape c ++ escapeLong 0 rest

/-- The line end after the opening marks of a long string, which is there if the string has line
ends of its own. -/
def leadingLineEnd (s : List Char) : List Char := if s.contains '\n' then ['\n'] else []

/-- A string in a style. -/
def Style.write (s : List Char) : Style → List Char
  | .basic => '"' :: s.flatMap escape ++ ['"']
  | .literal => apostrophe :: s ++ [apostrophe]
  | .longBasic =>
    List.replicate 3 '"' ++ leadingLineEnd s ++ escapeLong 0 s ++ List.replicate 3 '"'
  | .longLiteral =>
    List.replicate 3 apostrophe ++ leadingLineEnd s ++ s ++ List.replicate 3 apostrophe

/-- A string as it is written. -/
def quote (s : String) : String := String.ofList ((style s.toList).write s.toList)

/-! ## Strings on one line -/

/-- A basic string after its opening mark, and the text after its closing mark. -/
def readBasic? : List Char → Option (List Char × List Char)
  | '"' :: rest => some ([], rest)
  | '\\' :: 'u' :: a :: b :: c :: d :: rest => do
    let x ← ofCode? [a, b, c, d]
    let (chars, rest) ← readBasic? rest
    some (x :: chars, rest)
  | '\\' :: 'U' :: a :: b :: c :: d :: e :: f :: g :: h :: rest => do
    let x ← ofCode? [a, b, c, d, e, f, g, h]
    let (chars, rest) ← readBasic? rest
    some (x :: chars, rest)
  | '\\' :: c :: rest => do
    let x ← unescape? c
    let (chars, rest) ← readBasic? rest
    some (x :: chars, rest)
  | c :: rest => do
    if !isBasic c then none
    let (chars, rest) ← readBasic? rest
    some (c :: chars, rest)
  | [] => none

/-- A literal string after its opening mark, and the text after its closing mark. -/
def readLiteral? (text : List Char) : Option (List Char × List Char) :=
  match text.dropWhile isLiteral with
  | c :: rest => if c = apostrophe then some (text.takeWhile isLiteral, rest) else none
  | [] => none

/-! ## Strings over several lines -/

/-- The marks that belong to a string although three marks that close it come first, and the text
after all of them. -/
def closingMarks (mark : Char) : List Char → List Char × List Char
  | a :: b :: rest =>
    if a = mark then if b = mark then ([a, b], rest) else ([a], b :: rest) else ([], a :: b :: rest)
  | [a] => if a = mark then ([a], []) else ([], [a])
  | [] => ([], [])

/-- Whether only blanks come before the next line end. -/
def isBlankToLineEnd (text : List Char) : Bool := (lineEnd? (text.dropWhile isSpace)).isSome

/-- A basic string over several lines after its opening marks, and the text after its closing
marks. A backslash before a line end takes all blanks and line ends after it; while it does, the
first argument is true. -/
def readLongBasic? : Bool → List Char → Option (List Char × List Char)
  | _, '"' :: '"' :: '"' :: rest => some (closingMarks '"' rest)
  | passing, '\r' :: '\n' :: rest =>
    if passing then readLongBasic? true rest
    else do
      let (chars, rest) ← readLongBasic? false rest
      some ('\n' :: chars, rest)
  | _, '\\' :: 'u' :: a :: b :: c :: d :: rest => do
    let x ← ofCode? [a, b, c, d]
    let (chars, rest) ← readLongBasic? false rest
    some (x :: chars, rest)
  | _, '\\' :: 'U' :: a :: b :: c :: d :: e :: f :: g :: h :: rest => do
    let x ← ofCode? [a, b, c, d, e, f, g, h]
    let (chars, rest) ← readLongBasic? false rest
    some (x :: chars, rest)
  | _, '\\' :: c :: rest =>
    if isBlankToLineEnd (c :: rest) then readLongBasic? true (c :: rest)
    else do
      let x ← unescape? c
      let (chars, rest) ← readLongBasic? false rest
      some (x :: chars, rest)
  | passing, c :: rest =>
    if passing && (isSpace c || c == '\n') then readLongBasic? true rest
    else do
      if !(isBasic c || c == '"' || c == '\n') then none
      let (chars, rest) ← readLongBasic? false rest
      some (c :: chars, rest)
  | _, [] => none

/-- A literal string over several lines after its opening marks, and the text after its closing
marks. -/
def readLongLiteral? : List Char → Option (List Char × List Char)
  | '\r' :: '\n' :: rest => do
    let (chars, rest) ← readLongLiteral? rest
    some ('\n' :: chars, rest)
  | a :: b :: c :: rest =>
    if a = apostrophe ∧ b = apostrophe ∧ c = apostrophe then some (closingMarks apostrophe rest)
    else do
      if !(isPlain a || a == '\n') then none
      let (chars, rest) ← readLongLiteral? (b :: c :: rest)
      some (a :: chars, rest)
  | _ => none

/-- A text without the line end that it starts with. -/
def dropLineEnd (text : List Char) : List Char := (lineEnd? text).getD text

/-- Three marks at the start of a text, and the text after them. -/
def splitMarks? (mark : Char) (text : List Char) : Option (List Char) :=
  if (List.replicate 3 mark).isPrefixOf text then some (text.drop 3) else none

/-- A string that starts with a mark, and the text after it. -/
def readString? (mark : Char) (text : List Char) : Option (String × List Char) := do
  let (chars, rest) ←
    match splitMarks? mark text with
    | some inner =>
      if mark = '"' then readLongBasic? false (dropLineEnd inner)
      else readLongLiteral? (dropLineEnd inner)
    | none => if mark = '"' then readBasic? (text.drop 1) else readLiteral? (text.drop 1)
  some (String.ofList chars, rest)

end SqlCompose.Toml
