import SqlCompose.Predicate.Term

/-!
# Readers of lexemes

A reader takes lexemes from the front of a list, or refuses. Readers that may refuse leave no
trace: an alternative starts again where the refused reader started.
-/

namespace SqlCompose.Predicate

/-- A reader of lexemes. -/
abbrev Reader (α : Type) := StateT (List Lexeme) Option α

namespace Reader

/-- A reader that refuses. -/
def refuse {α : Type} : Reader α := fun _ => none

/-- The next lexeme. -/
def next : Reader Lexeme
  | [] => none
  | l :: rest => some (l, rest)

/-- The lexeme after so many others, which is not taken. -/
def peek (index : Nat) : Reader (Option Lexeme) := fun rest => some (rest[index]?, rest)

/-- What a reader reads, or nothing where it refuses. -/
def attempt {α : Type} (p : Reader α) : Reader (Option α) := fun rest =>
  match p rest with
  | some (a, rest) => some (some a, rest)
  | none => some (none, rest)

/-- Whether the next lexeme passes a test; if so, it is taken. -/
def take (test : Lexeme → Bool) : Reader Bool
  | [] => some (false, [])
  | l :: rest => if test l then some (true, rest) else some (false, l :: rest)

/-- What a reader answers where a condition holds; elsewhere it is not asked. -/
def onlyIf (condition : Bool) (p : Reader Bool) : Reader Bool :=
  if condition then p else pure false

/-- Whether a sign follows; if so, it is taken. -/
def sign? (s : String) : Reader Bool := take (· == .sign s)

/-- A sign. -/
def sign (s : String) : Reader Unit := do if ← sign? s then pure () else refuse

/-- Whether a list starts with keywords. -/
def startWith : List String → List Lexeme → Bool
  | [], _ => true
  | _ :: _, [] => false
  | k :: ks, l :: rest => l.isKeyword k && startWith ks rest

/-- Whether keywords follow; if all do, they are taken. -/
def keywords? (ks : List String) : Reader Bool := fun rest =>
  if startWith ks rest then some (true, rest.drop ks.length) else some (false, rest)

/-- Whether a keyword follows; if so, it is taken. -/
def keyword? (k : String) : Reader Bool := keywords? [k]

/-- Keywords. -/
def keywords (ks : List String) : Reader Unit := do
  if ← keywords? ks then pure () else refuse

/-- A keyword. -/
def keyword (k : String) : Reader Unit := keywords [k]

/-- One of several keywords. -/
def oneOf (ks : List String) : Reader String := do
  match (← next).keyword? with
  | some k => if ks.contains k then pure k else refuse
  | none => refuse

/-- One of several keywords, if one of them follows. -/
def oneOf? (ks : List String) : Reader (Option String) := attempt (oneOf ks)

/-- Whether the lexeme after so many others is one of several keywords; none is taken. -/
def seesAt (index : Nat) (ks : List String) : Reader Bool := do
  pure (((← peek index).bind Lexeme.keyword?).any ks.contains)

/-- Whether one of several keywords follows; it is not taken. -/
def sees (ks : List String) : Reader Bool := seesAt 0 ks

/-- Whether a sign follows; it is not taken. -/
def seesSign (s : String) : Reader Bool := do pure ((← peek 0) == some (.sign s))

/-- Repetitions of a reader until it gives nothing; the fuel bounds them. -/
def repeatWith {α : Type} (p : Reader (Option α)) : Nat → Reader (List α)
  | 0 => pure []
  | fuel + 1 => do
    match ← p with
    | some a => pure (a :: (← repeatWith p fuel))
    | none => pure []

/-- Repetitions of a reader until it gives nothing; each takes a lexeme at least. -/
def many {α : Type} (p : Reader (Option α)) : Reader (List α) := fun rest =>
  repeatWith p rest.length rest

/-- What a reader reads behind a comma, if a comma follows. -/
def afterComma {α : Type} (p : Reader α) : Reader (Option α) := do
  if ← sign? "," then some <$> p else pure none

/-- One or more times what a reader reads, with commas between. -/
def commaList {α : Type} (p : Reader α) : Reader (List α) := do
  pure ((← p) :: (← many (afterComma p)))

/-- What a reader reads in parentheses. -/
def inParentheses {α : Type} (p : Reader α) : Reader α := do
  sign "("
  let a ← p
  sign ")"
  pure a

/-- What a reader reads behind keywords, if they follow. -/
def behind {α : Type} (ks : List String) (p : Reader α) : Reader (Option α) := do
  if ← keywords? ks then some <$> p else pure none

/-- The first of several runs of keywords that follows, taken. -/
def firstKeywords? : List (List String) → Reader (Option (List String))
  | [] => pure none
  | ks :: more => do if ← keywords? ks then pure (some ks) else firstKeywords? more

/-! ## Names and literals -/

/-- A name. -/
def name : Reader Name := do
  match ← next with
  | .word n => pure n
  | .quoted .plain content => pure ⟨content, some apostrophe⟩
  | .quoted .quotation content => pure ⟨content, some '"'⟩
  | _ => refuse

/-- A path of names with points between. -/
def path : Reader (List Name) := do
  let first ← name
  pure (first :: (← many (do if ← sign? "." then some <$> name else pure none)))

/-- A path in its normal form. -/
def pathText : Reader String := writePath <$> path

/-- Names with commas between, in their normal form. -/
def namesText : Reader String := do
  pure (", ".intercalate ((← commaList name).map Name.write))

/-- Terms with commas between, in their normal form. -/
def listText (texts : List String) : String := ", ".intercalate texts

end Reader

end SqlCompose.Predicate
