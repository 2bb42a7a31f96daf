import SqlCompose.Toml.Quoted
import SqlCompose.Toml.Scalar

/-!
# TOML documents read

A document is a run of lines: headers, which declare tables, and keys with values, which go into
the table declared last. A key may have parts between dots. `readDocument?` is undefined for a text
that is no document and for one that contradicts itself.

The rules are those of TOML 1.0 as release 0.8 of `toml` keeps them: keys and brackets nest up to a
limit, and a floating-point number beyond the finite ones is refused. How that library words a fault
is not kept; every fault is the same.
-/

namespace SqlCompose.Toml

/-- The largest number of parts of a key, and of brackets and braces around a value. -/
def nestingLimit : Nat := 79

/-! ## Blanks and comments -/

/-- A text without the blanks in front. -/
def skipSpace (text : List Char) : List Char := text.dropWhile isSpace

/-- A text without the comment in front. -/
def skipComment : List Char → List Char
  | '#' :: rest => rest.dropWhile isPlain
  | rest => rest

/-- The text after a line that holds nothing more than a comment. -/
def endLine? (text : List Char) : Option (List Char) :=
  match skipComment (skipSpace text) with
  | [] => some []
  | rest => lineEnd? rest

/-- A text without the blanks, line ends and comments in front; the first argument is true within a
comment. -/
def skipGap : Bool → List Char → List Char
  | _, '\n' :: rest => skipGap false rest
  | _, '\r' :: '\n' :: rest => skipGap false rest
  | true, c :: rest => if isPlain c then skipGap true rest else c :: rest
  | false, c :: rest =>
    if isSpace c then skipGap false rest
    else if c == '#' then skipGap true rest
    else c :: rest
  | _, [] => []

/-! ## Keys -/

/-- Whether a character belongs to a key without quotation marks. -/
def isKeyChar (c : Char) : Bool :=
  Text.isAsciiLetter c || Text.isDigit c || c == '_' || c == '-'

/-- One part of a key, and the text after it. -/
def readKeyPart? (text : List Char) : Option (String × List Char) :=
  match text with
  | c :: rest =>
    if c = '"' then (readBasic? rest).map fun (chars, rest) => (String.ofList chars, rest)
    else if c = apostrophe then
      (readLiteral? rest).map fun (chars, rest) => (String.ofList chars, rest)
    else if isKeyChar c then
      some (String.ofList ((c :: rest).takeWhile isKeyChar), (c :: rest).dropWhile isKeyChar)
    else none
  | [] => none

/-- A key with a bounded number of parts: the parts before the last one, the last one, and the text
after them and after blanks. -/
def readKey? : Nat → List Char → Option (List String × String × List Char)
  | 0, _ => none
  | parts + 1, text => do
    let (part, rest) ← readKeyPart? (skipSpace text)
    match skipSpace rest with
    | '.' :: rest =>
      let (path, last, rest) ← readKey? parts rest
      some (part :: path, last, rest)
    | rest => some ([], part, rest)

/-! ## Values -/

/-- The members of a table in braces, from keys with values. -/
def ofPairs? (pairs : List (List String × String × Toml)) : Option (Fields Toml) :=
  pairs.foldlM (fun members (path, key, value) => addAt path key value .sealed members) []

mutual

/-- A value and the text after it. The first argument bounds the steps, the second the nesting. -/
def readValue? : Nat → Nat → List Char → Option (Toml × List Char)
  | 0, _, _ => none
  | fuel + 1, depth, text =>
    match text with
    | '[' :: rest => do
      if depth = 0 then none
      let (items, rest) ← readItems? fuel (depth - 1) (skipGap false rest)
      some (.array items, rest)
    | '\x7b' :: rest => do
      if depth = 0 then none
      match skipSpace rest with
      | '\x7d' :: rest => some (.table .sealed [], rest)
      | rest =>
        let (pairs, rest) ← readPairs? fuel (depth - 1) rest
        some (.table .sealed (← ofPairs? pairs), rest)
    | c :: rest =>
      if c = '"' ∨ c = apostrophe then
        (readString? c (c :: rest)).map fun (s, rest) => (.string s, rest)
      else readWord? (c :: rest)
    | [] => none

/-- The items of an array up to its closing bracket, and the text after it. -/
def readItems? : Nat → Nat → List Char → Option (List Toml × List Char)
  | 0, _, _ => none
  | fuel + 1, depth, text =>
    match text with
    | ']' :: rest => some ([], rest)
    | text => do
      let (item, rest) ← readValue? fuel depth text
      match skipGap false rest with
      | ',' :: rest =>
        let (items, rest) ← readItems? fuel depth (skipGap false rest)
        some (item :: items, rest)
      | ']' :: rest => some ([item], rest)
      | _ => none

/-- The keys and values of a table up to its closing brace, and the text after it. -/
def readPairs? : Nat → Nat → List Char → Option (List (List String × String × Toml) × List Char)
  | 0, _, _ => none
  | fuel + 1, depth, text => do
    let (path, key, rest) ← readKey? nestingLimit text
    let (value, rest) ← readValue? fuel depth (skipSpace (← readMark? '=' rest))
    match skipSpace rest with
    | ',' :: rest =>
      let (pairs, rest) ← readPairs? fuel depth rest
      some ((path, key, value) :: pairs, rest)
    | '\x7d' :: rest => some ([(path, key, value)], rest)
    | _ => none

end

/-! ## Lines -/

/-- What a line of a document holds. -/
inductive Line where
  /-- Nothing, or a comment. -/
  | empty
  /-- The header of a table. -/
  | header (path : List String) (key : String)
  /-- The header of one more table of an array. -/
  | element (path : List String) (key : String)
  /-- A key with its value. -/
  | pair (path : List String) (key : String) (value : Toml)

/-- What the line at the start of a text holds, and the text after the line. -/
def readLine? (text : List Char) : Option (Line × List Char) :=
  match skipSpace text with
  | '[' :: '[' :: rest => do
    let (path, key, rest) ← readKey? nestingLimit rest
    some (.element path key, ← endLine? (← readMark? ']' (← readMark? ']' rest)))
  | '[' :: rest => do
    let (path, key, rest) ← readKey? nestingLimit rest
    some (.header path key, ← endLine? (← readMark? ']' rest))
  | rest =>
    match endLine? rest with
    | some rest => some (.empty, rest)
    | none => do
      let (path, key, rest) ← readKey? nestingLimit rest
      let rest := skipSpace (← readMark? '=' rest)
      let (value, rest) ← readValue? (rest.length + 1) nestingLimit rest
      some (.pair path key value, ← endLine? rest)

/-! ## Documents -/

/-- A document that is being read. -/
structure Draft where
  /-- The path to the table that was declared last; the document itself has none. -/
  current : List String := []
  /-- The members of the document so far. -/
  members : Fields Toml := []

/-- A document with one more line. -/
def Draft.add? (d : Draft) : Line → Option Draft
  | .empty => some d
  | .header path key => do
    some ⟨path ++ [key], ← declareTable path key .declared d.members⟩
  | .element path key => do
    some ⟨path ++ [key], ← declareElement path key .declared d.members⟩
  | .pair path key value => do
    some { d with
      members := ← changeAt false (addAt path key value) d.current .declared d.members }

/-- A document with the lines of a text added; the first argument bounds their number. -/
def Draft.addLines? (d : Draft) : Nat → List Char → Option Draft
  | _, [] => some d
  | 0, _ => none
  | fuel + 1, text => do
    let (line, rest) ← readLine? text
    (← d.add? line).addLines? fuel rest

/-- A text without the mark of its byte order. -/
def skipByteOrderMark : List Char → List Char
  | c :: rest => if c = Char.ofNat 0xFEFF then rest else c :: rest
  | [] => []

/-- The members of the document that a text holds. -/
def readDocument? (text : String) : Option (Fields Toml) := do
  let chars := skipByteOrderMark text.toList
  some (← Draft.addLines? {} (chars.length + 1) chars).members

end SqlCompose.Toml
