import SqlCompose.Dialect.Token
import SqlCompose.Proofs.Text.Replacing

/-!
# Segments of SQL text

SQL text is read from left to right as quoted identifiers, placeholders and other characters. An
identifier ends at the first closing quote that is not doubled; a placeholder is its mark with the
digits behind it. `Dialect.scan` reads one character in one of four states, and
`Dialect.segments` is what a whole text is read as.
-/

namespace SqlCompose

/-- What holds of all characters of a text is decided along the text, not over all characters that
there are. -/
instance (priority := high) decidableForallMem (p : Char → Prop) [DecidablePred p]
    (s : List Char) : Decidable (∀ c ∈ s, p c) := List.decidableBAll p s

/-- A piece of SQL text. -/
inductive Segment where
  /-- A quoted identifier, as the name it denotes. -/
  | ident (name : List Char)
  /-- A placeholder. -/
  | param (mark : List Char)
  /-- A character outside of identifiers and placeholders. -/
  | char (c : Char)
deriving DecidableEq, Repr

/-- Where in a text the next character is read. -/
inductive Scan where
  /-- Outside of identifiers and placeholders. -/
  | outside
  /-- In an identifier, of which a part has been read. -/
  | quoted (name : List Char)
  /-- Behind a closing quote, which ends the identifier unless another one follows. -/
  | closing (name : List Char)
  /-- In a placeholder, of which a part has been read. -/
  | marked (mark : List Char)
deriving DecidableEq, Repr

/-- What is left to say of a text that ends here; an identifier that was not closed is none. -/
def Scan.rest : Scan → List Segment
  | .outside | .quoted _ => []
  | .closing name => [.ident name]
  | .marked mark => [.param mark]

namespace Dialect

/-- The character that begins a placeholder. -/
def markStart : Dialect → Char
  | .sqlServer | .sqlServerLegacy => '@'
  | .postgres => '$'
  | .mySql => '?'

/-- Whether a character goes on with a placeholder that has begun. -/
def continuesMark : Dialect → Char → Bool
  | .sqlServer, c | .sqlServerLegacy, c => c == 'p' || c.isDigit
  | .postgres, c => c.isDigit
  | .mySql, _ => false

/-- Read a character outside of identifiers and placeholders. -/
def scanOutside (d : Dialect) (c : Char) : List Segment × Scan :=
  if c = d.openQuote then ([], .quoted [])
  else if c = d.markStart then ([], .marked [c])
  else ([.char c], .outside)

/-- Read a character. -/
def scan (d : Dialect) : Scan → Char → List Segment × Scan
  | .outside, c => d.scanOutside c
  | .quoted name, c =>
    if c = d.closeQuote then ([], .closing name) else ([], .quoted (name ++ [c]))
  | .closing name, c =>
    if c = d.closeQuote then ([], .quoted (name ++ [c]))
    else (.ident name :: (d.scanOutside c).1, (d.scanOutside c).2)
  | .marked mark, c =>
    if d.continuesMark c then ([], .marked (mark ++ [c]))
    else (.param mark :: (d.scanOutside c).1, (d.scanOutside c).2)

/-- The segments of a text that goes on from a state. -/
def segmentsFrom (d : Dialect) : Scan → List Char → List Segment
  | s, [] => s.rest
  | s, c :: text => (d.scan s c).1 ++ d.segmentsFrom (d.scan s c).2 text

/-- The segments of a text. -/
def segments (d : Dialect) (text : String) : List Segment := d.segmentsFrom .outside text.toList

/-! ## Quoted identifiers -/

variable (d : Dialect)

/-- Behind a closing quote that no other one follows, the identifier is complete. -/
theorem segmentsFrom_closing {name rest : List Char} (h : rest.head? ≠ some d.closeQuote) :
    d.segmentsFrom (.closing name) rest = .ident name :: d.segmentsFrom .outside rest := by
  cases rest with
  | nil => rfl
  | cons c rest =>
    have hc : c ≠ d.closeQuote := by simpa using h
    simp [segmentsFrom, scan, hc]

/-- A name with its closing quotes doubled is read up to the quote behind it as that name. -/
theorem segmentsFrom_quoted (acc name rest : List Char) :
    d.segmentsFrom (.quoted acc) (Text.doubling d.closeQuote name ++ d.closeQuote :: rest) =
      d.segmentsFrom (.closing (acc ++ name)) rest := by
  induction name generalizing acc with
  | nil => simp [Text.doubling, segmentsFrom, scan]
  | cons c name ih =>
    have hname : Text.doubling d.closeQuote (c :: name) =
        (if c = d.closeQuote then [d.closeQuote, d.closeQuote] else [c]) ++
          Text.doubling d.closeQuote name := by simp [Text.doubling]
    rw [hname]
    by_cases hc : c = d.closeQuote
    · simpa [hc, segmentsFrom, scan] using ih (acc ++ [d.closeQuote])
    · simpa [hc, segmentsFrom, scan] using ih (acc ++ [c])

/-- A quoted identifier is read back as its name. -/
theorem segmentsFrom_quoteChars (name : List Char) {rest : List Char}
    (h : rest.head? ≠ some d.closeQuote) :
    d.segmentsFrom .outside (d.quoteChars name ++ rest) =
      .ident name :: d.segmentsFrom .outside rest := by
  have hopen : d.segmentsFrom .outside (d.quoteChars name ++ rest) =
      d.segmentsFrom (.quoted []) (Text.doubling d.closeQuote name ++ d.closeQuote :: rest) := by
    simp [quoteChars, segmentsFrom, scan, scanOutside]
  rw [hopen, segmentsFrom_quoted, segmentsFrom_closing d h, List.nil_append]

/-! ## Placeholders -/

/-- Digits go on with a placeholder up to a character that does not. -/
theorem segmentsFrom_marked (mark digits : List Char) {rest : List Char}
    (hdigits : ∀ c ∈ digits, d.continuesMark c = true)
    (h : ∀ c, rest.head? = some c → d.continuesMark c = false) :
    d.segmentsFrom (.marked mark) (digits ++ rest) =
      .param (mark ++ digits) :: d.segmentsFrom .outside rest := by
  induction digits generalizing mark with
  | nil =>
    cases rest with
    | nil => simp [segmentsFrom, Scan.rest]
    | cons c rest => simp [segmentsFrom, scan, h c rfl]
  | cons c digits ih =>
    rw [List.forall_mem_cons] at hdigits
    simpa [segmentsFrom, scan, hdigits.1] using ih (mark ++ [c]) hdigits.2

/-- A number is written with digits only. -/
theorem isDigit_of_mem_toString {n : Nat} {c : Char} (h : c ∈ (toString n).toList) :
    c.isDigit = true := by
  rw [Nat.toString_eq_repr, Nat.toList_repr] at h
  exact Nat.isDigit_of_mem_toDigits (by decide) (by decide) h

/-- A placeholder is its first character with characters that go on with it. -/
theorem placeholder_eq (index : Nat) : ∃ digits, (d.placeholder index).toList = d.markStart :: digits ∧
    ∀ c ∈ digits, d.continuesMark c = true := by
  cases d with
  | sqlServer | sqlServerLegacy =>
    refine ⟨'p' :: (toString index).toList, by simp [placeholder, placeholderStyle, markStart], ?_⟩
    intro c hc
    rcases List.mem_cons.mp hc with rfl | hc
    · rfl
    · simp [continuesMark, isDigit_of_mem_toString hc]
  | postgres =>
    refine ⟨(toString (index + 1)).toList, by simp [placeholder, placeholderStyle, markStart], ?_⟩
    exact fun c hc => by simp [continuesMark, isDigit_of_mem_toString hc]
  | mySql => exact ⟨[], by simp [placeholder, placeholderStyle, markStart], by simp⟩

/-- No dialect begins identifiers and placeholders with the same character. -/
theorem markStart_ne_openQuote : d.markStart ≠ d.openQuote := by cases d <;> decide

/-- A placeholder is read as one. -/
theorem segmentsFrom_placeholder (index : Nat) {rest : List Char}
    (h : ∀ c, rest.head? = some c → d.continuesMark c = false) :
    d.segmentsFrom .outside ((d.placeholder index).toList ++ rest) =
      .param (d.placeholder index).toList :: d.segmentsFrom .outside rest := by
  obtain ⟨digits, heq, hdigits⟩ := d.placeholder_eq index
  rw [heq, ← List.singleton_append, ← segmentsFrom_marked d [d.markStart] digits hdigits h]
  simp [segmentsFrom, scan, scanOutside, d.markStart_ne_openQuote]

/-! ## Other text -/

/-- Whether a text begins neither an identifier nor a placeholder anywhere. -/
def IsClean (text : List Char) : Prop := ∀ c ∈ text, c ≠ d.openQuote ∧ c ≠ d.markStart

instance (text : List Char) : Decidable (d.IsClean text) := by unfold IsClean; infer_instance

/-- Clean text is read character by character. -/
theorem segmentsFrom_clean {text : List Char} (h : d.IsClean text) (rest : List Char) :
    d.segmentsFrom .outside (text ++ rest) =
      text.map .char ++ d.segmentsFrom .outside rest := by
  induction text with
  | nil => rfl
  | cons c text ih =>
    obtain ⟨hc, ht⟩ := List.forall_mem_cons.mp h
    simp [segmentsFrom, scan, scanOutside, hc.1, hc.2, ih ht]

end Dialect

end SqlCompose
