/-!
# Finding and replacing a phrase in a text

Texts are lists of characters here, so that every function is a recursion on the text itself.
`splitOn` cuts a text at the occurrences of a phrase, read from left to right and without
overlap; replacing a phrase is cutting at it and joining with the new one.
-/

namespace SqlCompose.Text

/-! ## Cutting -/

/-- Put a character in front of the first piece. -/
def consFirst (c : Char) : List (List Char) → List (List Char)
  | [] => [[c]]
  | piece :: pieces => (c :: piece) :: pieces

/-- The pieces of a text around a phrase, while `skip` characters of an occurrence that has
begun are still to be passed over. -/
def splitOnFrom (phrase : List Char) : Nat → List Char → List (List Char)
  | _, [] => [[]]
  | skip + 1, _ :: rest => splitOnFrom phrase skip rest
  | 0, c :: rest =>
    if phrase.isPrefixOf (c :: rest) then
      [] :: splitOnFrom phrase (phrase.length - 1) rest
    else
      consFirst c (splitOnFrom phrase 0 rest)

/-- The pieces of a text around the occurrences of a phrase, in order; a text without the phrase
is one piece. -/
def splitOn (phrase text : List Char) : List (List Char) :=
  if phrase.isEmpty then [text] else splitOnFrom phrase 0 text

/-- The text before the first occurrence of a phrase and the text after it. -/
def splitFirst (phrase : List Char) : List Char → Option (List Char × List Char)
  | [] => if phrase.isEmpty then some ([], []) else none
  | c :: rest =>
    if phrase.isPrefixOf (c :: rest) then
      some ([], (c :: rest).drop phrase.length)
    else
      (splitFirst phrase rest).map fun (before, after) => (c :: before, after)

/-- The text before the last character that satisfies a test, that character, and the text
after it. -/
def splitLast (test : Char → Bool) : List Char → Option (List Char × Char × List Char)
  | [] => none
  | c :: rest =>
    match splitLast test rest with
    | some (before, d, after) => some (c :: before, d, after)
    | none => if test c then some ([], c, rest) else none

/-! ## Asking and replacing -/

/-- Whether a phrase occurs in a text. -/
def contains (phrase : List Char) (text : List Char) : Bool :=
  (splitFirst phrase text).isSome

/-- A text with every occurrence of a phrase replaced. -/
def replaceAll (phrase replacement text : List Char) : List Char :=
  List.intercalate replacement (splitOn phrase text)

/-- Whether a text starts with a phrase. -/
def startsWith (phrase : String) (text : String) : Bool :=
  phrase.toList.isPrefixOf text.toList

/-- A text with every occurrence of one character written as two. -/
def doubling (mark : Char) (text : List Char) : List Char :=
  text.flatMap fun c => if c = mark then [mark, mark] else [c]

/-! ## Lemmas -/

/-- Splitting always leaves at least one piece, also when the phrase does not occur. -/
theorem splitOnFrom_ne_nil (phrase : List Char) (skip : Nat) (text : List Char) :
    splitOnFrom phrase skip text ≠ [] := by
  induction text generalizing skip with
  | nil => cases skip <;> simp [splitOnFrom]
  | cons c rest ih =>
    cases skip with
    | succ skip => simpa [splitOnFrom] using ih skip
    | zero =>
      unfold splitOnFrom
      split
      · simp
      · cases h : splitOnFrom phrase 0 rest <;> simp [consFirst]

/-- Cutting never yields an empty list of pieces. -/
theorem splitOn_ne_nil (phrase text : List Char) : splitOn phrase text ≠ [] := by
  unfold splitOn
  split
  · simp
  · exact splitOnFrom_ne_nil phrase 0 text

/-- Doubling a mark works character by character, so it distributes over concatenation. -/
theorem doubling_append (mark : Char) (s t : List Char) :
    doubling mark (s ++ t) = doubling mark s ++ doubling mark t := by
  simp [doubling]

end SqlCompose.Text
