import SqlCompose.Dialect.Basic
import SqlCompose.Predicate.Lexeme
import SqlCompose.Text.Letter

/-!
# Cutting predicate text into lexemes

Each function reads one form of lexeme at the start of a text and gives back the rest. Dialects
differ in what names are made of, in the marks that quote a name, in escapes, and in whether
operator characters join to operators that the language does not know.

The forms are those of release 0.53 of `sqlparser`: a comment starts at two dashes whatever follows
them, and a tag between dollar signs is compared from each dollar sign on.
-/

namespace SqlCompose.Predicate

open Text (isBlank isDigit isLetter)

/-! ## Names -/

/-- Whether a character is in the range of non-ASCII characters below the supplementary planes. -/
def isExtended (c : Char) : Bool := 0x80 ≤ c.toNat && c.toNat ≤ 0xFFFF

/-- Whether a name may start with a character. -/
def startsName (d : Dialect) (c : Char) : Bool :=
  match d with
  | .sqlServer | .sqlServerLegacy => isLetter c || c == '_' || c == '#' || c == '@'
  | .postgres => isLetter c || c == '_'
  | .mySql => isLetter c || c == '_' || c == '$' || c == '@' || isExtended c

/-- Whether a name may go on with a character. -/
def continuesName (d : Dialect) (c : Char) : Bool :=
  startsName d c || isDigit c || c == '$' && d != .mySql

/-- The mark that closes a name quoted with a mark. -/
def closingMark (d : Dialect) (c : Char) : Option Char :=
  match d with
  | .sqlServer | .sqlServerLegacy =>
    if c = '[' then some ']' else if c = '"' then some '"' else none
  | .postgres => if c = '"' then some '"' else none
  | .mySql => if c = Char.ofNat 96 then some c else none

/-- A bare word whose first characters have been read. -/
def bareWord (d : Dialect) (start rest : List Char) : Lexeme × List Char :=
  let more := rest.takeWhile (continuesName d)
  (.word ⟨String.ofList (start ++ more), none⟩, rest.drop more.length)

/-! ## Quoted texts -/

/-- The characters up to a closing mark, which is doubled to stand for itself. -/
def marked? (mark : Char) : List Char → Option (List Char × List Char)
  | [] => none
  | [c] => if c = mark then some ([], []) else none
  | c :: d :: rest =>
    if c = mark then
      if d = mark then (marked? mark rest).map fun (text, rest) => (c :: text, rest)
      else some ([], d :: rest)
    else (marked? mark (d :: rest)).map fun (text, rest) => (c :: text, rest)

/-- What a backslash and a character stand for. -/
def unescape (c : Char) : List Char :=
  if c = '0' then [Char.ofNat 0]
  else if c = 'a' then [Char.ofNat 7]
  else if c = 'b' then [Char.ofNat 8]
  else if c = 'f' then [Char.ofNat 12]
  else if c = 'n' then ['\n']
  else if c = 'r' then ['\r']
  else if c = 't' then ['\t']
  else if c = 'Z' then [Char.ofNat 26]
  else [c]

/-- The characters up to a closing mark, which is doubled to stand for itself, with escapes behind
backslashes. -/
def escaped? (mark : Char) : List Char → Option (List Char × List Char)
  | [] => none
  | [c] => if c = mark then some ([], []) else none
  | c :: d :: rest =>
    if c = '\\' then (escaped? mark rest).map fun (text, rest) => (unescape d ++ text, rest)
    else if c = mark then
      if d = mark then (escaped? mark rest).map fun (text, rest) => (c :: text, rest)
      else some ([], d :: rest)
    else (escaped? mark (d :: rest)).map fun (text, rest) => (c :: text, rest)

/-- The characters of a text between two marks in a dialect. -/
def plainText? (d : Dialect) (mark : Char) (text : List Char) : Option (List Char × List Char) :=
  if d = .mySql then escaped? mark text else marked? mark text

/-- The number that so many hexadecimal digits at the start of a text spell, and the rest. -/
def hexDigits? : Nat → Nat → List Char → Option (Nat × List Char)
  | 0, soFar, text => some (soFar, text)
  | _ + 1, _, [] => none
  | count + 1, soFar, c :: rest => do hexDigits? count (soFar * 16 + (← Text.hexDigit? c)) rest

/-- The character with a code point, if it is one and not the zero character. -/
def character? (n : Nat) : Option Char :=
  if 0 < n ∧ (n < 0xD800 ∨ 0xDFFF < n ∧ n < 0x110000) then some (Char.ofNat n) else none

/-- The character with a byte; only ASCII bytes stand for characters. -/
def byteCharacter? (n : Nat) : Option Char :=
  if 0 < n % 256 ∧ n % 256 < 128 then some (Char.ofNat (n % 256)) else none

/-- Whether a character is an octal digit. -/
def isOctalDigit (c : Char) : Bool := '0' ≤ c && c ≤ '7'

/-- What an escape of a text behind `E` stands for, and the rest; the backslash has been read. -/
def longEscape? : List Char → Option (Char × List Char)
  | [] => none
  | c :: rest =>
    if c = 'b' then some (Char.ofNat 8, rest)
    else if c = 'f' then some (Char.ofNat 12, rest)
    else if c = 'n' then some ('\n', rest)
    else if c = 'r' then some ('\r', rest)
    else if c = 't' then some ('\t', rest)
    else if c = 'u' then do
      let (n, rest) ← hexDigits? 4 0 rest
      some (← character? n, rest)
    else if c = 'U' then do
      let (n, rest) ← hexDigits? 8 0 rest
      some (← character? n, rest)
    else if c = 'x' then
      let digits := (rest.take 2).takeWhile fun c => (Text.hexDigit? c).isSome
      if digits.isEmpty then some (c, rest)
      else do
        let (n, rest) ← hexDigits? digits.length 0 rest
        some (← byteCharacter? n, rest)
    else if isOctalDigit c then
      let digits := c :: (rest.take 2).takeWhile isOctalDigit
      let n := digits.foldl (fun n c => n * 8 + (Text.digit? c).getD 0) 0
      (byteCharacter? n).map fun c => (c, rest.drop (digits.length - 1))
    else if c.toNat = 0 then none
    else some (c, rest)

/-- The characters of a text behind `E`, up to the closing apostrophe; the fuel bounds the
characters. -/
def longEscaped? : Nat → List Char → Option (List Char × List Char)
  | 0, _ | _, [] => none
  | fuel + 1, c :: rest =>
    if c = apostrophe then
      match rest with
      | d :: more =>
        if d = apostrophe then (longEscaped? fuel more).map fun (text, rest) => (c :: text, rest)
        else some ([], rest)
      | [] => some ([], [])
    else if c = '\\' then do
      let (e, rest) ← longEscape? rest
      let (text, rest) ← longEscaped? fuel rest
      some (e :: text, rest)
    else (longEscaped? fuel rest).map fun (text, rest) => (c :: text, rest)

/-- The characters of a text behind `U&`, up to the closing apostrophe; the fuel bounds the
characters. -/
def codePoints? : Nat → List Char → Option (List Char × List Char)
  | 0, _ | _, [] => none
  | fuel + 1, c :: rest =>
    if c = apostrophe then
      match rest with
      | d :: more =>
        if d = apostrophe then (codePoints? fuel more).map fun (text, rest) => (c :: text, rest)
        else some ([], rest)
      | [] => some ([], [])
    else if c = '\\' then
      match rest with
      | '\\' :: more => (codePoints? fuel more).map fun (text, rest) => (c :: text, rest)
      | _ => do
        let (n, rest) ←
          if rest.head? = some '+' then hexDigits? 6 0 (rest.drop 1) else hexDigits? 4 0 rest
        let e ← if n = 0 then some (Char.ofNat 0) else character? n
        let (text, rest) ← codePoints? fuel rest
        some (e :: text, rest)
    else (codePoints? fuel rest).map fun (text, rest) => (c :: text, rest)

/-- A lexeme with the content of a quoted text. -/
def asQuoted (form : TextForm) : List Char × List Char → Lexeme × List Char
  | (content, rest) => (.quoted form (String.ofList content), rest)

/-- A quoted text that a letter introduces: `N`, `E`, `U&`, `X` or `B` in front of a mark. -/
def introduced? (d : Dialect) (text : List Char) : Option (Option (Lexeme × List Char)) :=
  match text with
  | c :: m :: rest =>
    let letter := c.toUpper
    if m = apostrophe then
      if letter = 'N' then
        some ((escaped? m rest).map (asQuoted .national))
      else if letter = 'X' then
        some ((escaped? m rest).map (asQuoted .hexadecimal))
      else if letter = 'E' ∧ d = .postgres then
        some ((longEscaped? (rest.length + 1) rest).map (asQuoted .escaped))
      else if letter = 'B' ∧ (d = .postgres ∨ d = .mySql) then
        some ((marked? m rest).map (asQuoted (.bits m)))
      else none
    else if m = '"' ∧ letter = 'B' ∧ (d = .postgres ∨ d = .mySql) then
      some ((marked? m rest).map (asQuoted (.bits m)))
    else if m = '&' ∧ letter = 'U' ∧ d = .postgres then
      match rest with
      | q :: more =>
        if q = apostrophe then
          some ((codePoints? (more.length + 1) more).map (asQuoted .unicode))
        else none
      | [] => none
    else none
  | _ => none

/-- What comes of looking for a tag and a dollar sign at the start of a text. -/
inductive TagMatch where
  /-- Both stand there, in front of the rest. -/
  | closed (rest : List Char)
  /-- Other characters stand there; those that were compared, and the rest. -/
  | other (compared rest : List Char)
  /-- The text ends within the tag. -/
  | ended

/-- Looks for a tag and a dollar sign at the start of a text. -/
def matchTag : List Char → List Char → TagMatch
  | [], '$' :: rest => .closed rest
  | [], rest => .other [] rest
  | _ :: _, [] => .ended
  | c :: tag, d :: rest =>
    if d = c then
      match matchTag tag rest with
      | .other compared rest => .other (d :: compared) rest
      | found => found
    else .other [d] rest

/-- The characters up to a tag between dollar signs; the fuel bounds the characters. A dollar sign
that starts no such tag is passed over with the characters that were compared. -/
def tagged? (tag : List Char) : Nat → List Char → Option (List Char × List Char)
  | 0, _ | _, [] => none
  | fuel + 1, c :: rest =>
    if c = '$' then
      match matchTag tag rest with
      | .closed rest => some ([], rest)
      | .other compared rest =>
        (tagged? tag fuel rest).map fun (text, rest) => (c :: compared ++ text, rest)
      | .ended => none
    else (tagged? tag fuel rest).map fun (text, rest) => (c :: text, rest)

/-- What a dollar sign introduces: a quoted text or a placeholder; the sign has been read. -/
def dollar? (rest : List Char) : Option (Lexeme × List Char) :=
  let tag := rest.takeWhile fun c => Text.isLetterOrNumeral c || c == '_'
  match rest.drop tag.length with
  | '$' :: content => do
    let (content, rest) ← tagged? tag (content.length + 1) content
    some (.quoted (.dollar (String.ofList tag)) (String.ofList content), rest)
  | rest => some (.placeholder (String.ofList ('$' :: tag)), rest)

/-! ## Numbers -/

/-- The exponent at the start of a text: a mark, an optional sign and digits. -/
def exponentPart (text : List Char) : List Char :=
  match text with
  | c :: s :: rest =>
    if c = 'e' ∨ c = 'E' then
      if isDigit s then c :: (s :: rest).takeWhile isDigit
      else if s = '+' ∨ s = '-' then
        let digits := rest.takeWhile isDigit
        if digits.isEmpty then [] else c :: s :: digits
      else []
    else []
  | _ => []

/-- The start of an exponent that no digits follow. -/
def startsExponent : List Char → Bool
  | c :: _ => c == 'e' || c == 'E'
  | [] => false

/-- A number, the mark of a path, or, where names may start with digits, a name. -/
def number (d : Dialect) (text : List Char) : Lexeme × List Char :=
  let whole := text.takeWhile isDigit
  match whole, text.drop whole.length with
  | ['0'], 'x' :: rest =>
    let digits := rest.takeWhile fun c => (Text.hexDigit? c).isSome
    asQuoted .hexadecimal (digits, rest.drop digits.length)
  | _, rest =>
    let (point, rest) :=
      match rest with
      | '.' :: rest => (['.'], rest)
      | rest => ([], rest)
    let places := rest.takeWhile isDigit
    let rest := rest.drop places.length
    let digits := whole ++ point ++ places
    if digits = ['.'] then (.sign ".", rest)
    else
      let exponent := exponentPart rest
      let after := rest.drop exponent.length
      let word := after.takeWhile (continuesName d)
      if d = .mySql ∧ exponent.isEmpty ∧ !startsExponent after ∧ !word.isEmpty then
        bareWord d digits after
      else
        match after with
        | 'L' :: after => (.number (String.ofList (digits ++ exponent)) true, after)
        | after => (.number (String.ofList (digits ++ exponent)) false, after)

/-! ## Signs -/

/-- The signs of the language; a sign that another one starts with comes after it. -/
def signs : List String :=
  ["->>", "->", "-", "||/", "||", "|/", "|", "<=>", "<=", "<>", "<<", "<@", "<", ">=", ">>", ">",
    "==", "=>", "=", "!~~*", "!~~", "!~*", "!~", "!=", "!!", "!", "~~*", "~~", "~*", "~", "&&",
    "&", "^@", "^", "#>>", "#>", "#-", "#", "@>", "@?", "@@", "@", "::", ":=", ":", "+", "*", "/",
    "%", "(", ")", ",", ";", "[", "]", "\x7b", "\x7d", "\\"]

/-- The signs that further operator characters join to a longer operator. -/
def joiningSigns : List String :=
  ["->>", "->", "-", "||/", "||", "|/", "|", "<=>", "<=", "<>", "<<", "<@", "<", ">=", ">>", ">",
    "~~*", "~~", "~*", "~", "&&", "&", "#>>", "#>", "#-", "#", "%"]

/-- The characters of operators that the language does not know. -/
def isOperatorChar (c : Char) : Bool :=
  "+-*/<>=~!@#%^&|?".toList.contains c || c == Char.ofNat 96

/-- A sign, or the operator that it starts; any other character is a sign of its own. -/
def signLexeme (d : Dialect) (c : Char) (rest : List Char) : Lexeme × List Char :=
  match signs.find? fun s => s.toList.isPrefixOf (c :: rest) with
  | some s =>
    let after := (c :: rest).drop s.length
    let more := after.takeWhile isOperatorChar
    if d = .postgres ∧ joiningSigns.contains s ∧ !more.isEmpty then
      (.custom (s ++ String.ofList more), after.drop more.length)
    else (.sign s, after)
  | none => (.sign (String.singleton c), rest)

/-- What a question mark stands for: an operator, which takes the next character along, or a
placeholder. -/
def question (d : Dialect) (rest : List Char) : Lexeme × List Char :=
  if d = .postgres then
    match rest with
    | '|' :: rest => (.sign "?|", rest)
    | '&' :: rest => (.sign "?&", rest)
    | rest => (.sign "?", rest.drop 1)
  else
    let digits := rest.takeWhile Text.isNumeral
    (.placeholder (String.ofList ('?' :: digits)), rest.drop digits.length)

/-- What `#` stands for where it is no comment: a sign, or the start of a name that takes the next
character along. -/
def hash (d : Dialect) (rest : List Char) : Lexeme × List Char :=
  match rest with
  | c :: more =>
    if c != '-' && c != '>' && c != ' ' && startsName d '#' then bareWord d ['#', c] more
    else signLexeme d '#' rest
  | [] => signLexeme d '#' rest

/-- What `@` stands for: a sign, or the start of a name that takes the next character along. -/
def atMark (d : Dialect) (rest : List Char) : Lexeme × List Char :=
  let marks := ['>', '?', ' ', apostrophe, '"', Char.ofNat 96]
  match rest with
  | '@' :: c :: more =>
    if c != ' ' && startsName d '@' then bareWord d ['@', '@', c] more else signLexeme d '@' rest
  | c :: more =>
    if c != '@' && !marks.contains c && startsName d '@' then bareWord d ['@', c] more
    else signLexeme d '@' rest
  | [] => signLexeme d '@' rest

/-! ## Comments -/

/-- The text after a comment to the end of the line. -/
def afterLine (text : List Char) : List Char := (text.dropWhile (· != '\n')).drop 1

/-- The text after a comment that has been opened so many times; comments nest. -/
def afterComment? : Nat → Char → List Char → Option (List Char)
  | _, _, [] => none
  | depth, last, c :: rest =>
    if last = '/' ∧ c = '*' then afterComment? (depth + 1) c rest
    else if last = '*' ∧ c = '/' then
      if depth ≤ 1 then some rest else afterComment? (depth - 1) c rest
    else afterComment? depth c rest

/-- The text after a comment, if the text starts with one; the outer option fails if the comment
is never closed. -/
def skipComment (d : Dialect) (text : List Char) : Option (Option (List Char)) :=
  match text with
  | '-' :: '-' :: rest => some (some (afterLine rest))
  | '/' :: '*' :: rest => (afterComment? 1 ' ' rest).map some
  | '#' :: rest => if d = .mySql then some (some (afterLine rest)) else some none
  | _ => some none

/-! ## The whole text -/

/-- The lexeme at the start of a text that starts with neither a blank nor a comment. -/
def lexeme? (d : Dialect) (c : Char) (rest : List Char) : Option (Lexeme × List Char) :=
  match introduced? d (c :: rest) with
  | some read => read
  | none =>
    if c = apostrophe then (plainText? d c rest).map (asQuoted .plain)
    else
      match closingMark d c with
      | some mark =>
        (marked? mark rest).map fun (text, rest) => (.word ⟨String.ofList text, some c⟩, rest)
      | none =>
        if c = '"' then (plainText? d c rest).map (asQuoted .quotation)
        else if isDigit c || c == '.' then some (number d (c :: rest))
        else if c = '#' then some (hash d rest)
        else if c = '@' then some (atMark d rest)
        else if c = '?' then some (question d rest)
        else if startsName d c then some (bareWord d [c] rest)
        else if c = '$' then dollar? rest
        else some (signLexeme d c rest)

/-- Whether a character is dropped between lexemes; a name may start with some blanks. -/
def isGap (d : Dialect) (c : Char) : Bool := isBlank c && !startsName d c

/-- The lexemes of a text; the fuel bounds the lexemes, blanks and comments. -/
def lexemes? (d : Dialect) : Nat → List Char → Option (List Lexeme)
  | _, [] => some []
  | 0, _ => none
  | fuel + 1, c :: rest =>
    if isGap d c then lexemes? d fuel rest
    else
      match skipComment d (c :: rest) with
      | none => none
      | some (some rest) => lexemes? d fuel rest
      | some none => do
        let (l, rest) ← lexeme? d c rest
        some (l :: (← lexemes? d fuel rest))

/-- The lexemes of a predicate text. -/
def lex? (d : Dialect) (text : String) : Option (List Lexeme) :=
  lexemes? d (text.length + 1) text.toList

end SqlCompose.Predicate
