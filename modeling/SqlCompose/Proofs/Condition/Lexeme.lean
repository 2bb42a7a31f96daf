import SqlCompose.Proofs.Dialect.Token

/-!
# Lexemes of SQL text

The segments of a text are read as lexemes: an identifier and a placeholder are one each, letters
and digits that stand together are a word, and so are signs of comparison. Placeholders are counted
from left to right, since some dialects mark all of them alike.
-/

namespace SqlCompose.Sql

/-- A lexeme of a condition. -/
inductive Lexeme where
  /-- A quoted identifier. -/
  | name (s : String)
  /-- A placeholder, with the number of those in front of it. -/
  | param (index : Nat)
  | number (n : Nat)
  | null
  | truth (b : Bool)
  | not
  | is
  | in
  /-- A comparison or a connective. -/
  | op (op : BinaryOp)
  | openParen
  | closeParen
  | comma
  /-- Anything else. -/
  | other (s : String)
deriving DecidableEq, Repr

/-- The lexeme that a word or a sign is. -/
def Lexeme.ofWord (s : String) : Lexeme :=
  match BinaryOp.all.find? fun o => o.word == s with
  | some o => .op o
  | none =>
    match s with
    | "NOT" => .not
    | "IS" => .is
    | "IN" => .in
    | "NULL" => .null
    | "TRUE" => .truth true
    | "FALSE" => .truth false
    | "(" => .openParen
    | ")" => .closeParen
    | "," => .comma
    | s =>
      if s.toList.all Char.isDigit then
        .number (s.toList.foldl (fun n c => 10 * n + (c.toNat - 48)) 0)
      else .other s

/-! ## Reading characters -/

/-- What a character may stand together with. -/
inductive CharClass where
  | letter
  | sign
  | mark
  | blank
deriving DecidableEq, Repr

/-- The class of a character outside of identifiers and placeholders. -/
def CharClass.of (c : Char) : CharClass :=
  if c.isAlphanum || c == '_' then .letter
  else if c ∈ ['<', '>', '='] then .sign
  else if c = ' ' then .blank
  else .mark

/-- Characters of one class that have been read, while more of them may follow. -/
structure CharRun where
  cls : CharClass
  text : List Char
deriving DecidableEq, Repr

namespace CharRun

/-- Nothing has been read. -/
def nothing : CharRun := ⟨.blank, []⟩

/-- The lexeme that has been read, unless it is blank. -/
def lexemes (r : CharRun) : List Lexeme :=
  if r.text.isEmpty then [] else [.ofWord (String.ofList r.text)]

@[simp] theorem lexemes_nothing : nothing.lexemes = [] := rfl

/-- Whether a character belongs to what has been read. -/
def takes (r : CharRun) (c : Char) : Bool :=
  r.cls == .of c && (r.cls == .letter || r.cls == .sign)

@[simp] theorem takes_nothing (c : Char) : nothing.takes c = false := by simp [takes, nothing]

/-- What a character begins. -/
def start (c : Char) : CharRun := ⟨.of c, if CharClass.of c = .blank then [] else [c]⟩

/-- The lexemes that a character completes. -/
def completed (r : CharRun) (c : Char) : List Lexeme := if r.takes c then [] else r.lexemes

/-- What has been read behind a character. -/
def next (r : CharRun) (c : Char) : CharRun :=
  if r.takes c then ⟨r.cls, r.text ++ [c]⟩ else start c

/-- The lexemes that several characters complete. -/
def completedBy : CharRun → List Char → List Lexeme
  | _, [] => []
  | r, c :: text => r.completed c ++ completedBy (r.next c) text

/-- What has been read behind several characters. -/
def behind (r : CharRun) (text : List Char) : CharRun := text.foldl next r

end CharRun

/-- The lexemes of segments, behind characters and a number of placeholders. -/
def lexemesFrom : CharRun → Nat → List Segment → List Lexeme
  | r, _, [] => r.lexemes
  | r, k, .ident name :: rest =>
    r.lexemes ++ .name (String.ofList name) :: lexemesFrom .nothing k rest
  | r, k, .param _ :: rest => r.lexemes ++ .param k :: lexemesFrom .nothing (k + 1) rest
  | r, k, .char c :: rest => r.completed c ++ lexemesFrom (r.next c) k rest

/-- The lexemes of a text that holds neither identifiers nor placeholders. -/
def wordLexemes (text : List Char) : List Lexeme :=
  CharRun.completedBy .nothing text ++ (CharRun.behind .nothing text).lexemes

/-- Characters are read as what they complete, and what stands behind them is read after what is
left of them. -/
theorem lexemesFrom_chars (r : CharRun) (k : Nat) (text : List Char) (rest : List Segment) :
    lexemesFrom r k (text.map .char ++ rest) =
      r.completedBy text ++ lexemesFrom (r.behind text) k rest := by
  induction text generalizing r with
  | nil => rfl
  | cons c text ih =>
    simp only [List.map_cons, List.cons_append, lexemesFrom, CharRun.completedBy, ih,
      List.append_assoc]
    rfl

/-- Whether what has been read does not go on in segments. -/
def CharRun.Ends (r : CharRun) (rest : List Segment) : Prop :=
  ∀ c, rest.head? = some (.char c) → r.takes c = false

/-- What does not go on is complete. -/
theorem lexemesFrom_of_ends {r : CharRun} {rest : List Segment} (h : r.Ends rest) (k : Nat) :
    lexemesFrom r k rest = r.lexemes ++ lexemesFrom .nothing k rest := by
  match rest with
  | [] => simp [lexemesFrom]
  | .ident _ :: _ => simp [lexemesFrom]
  | .param _ :: _ => simp [lexemesFrom]
  | .char c :: rest => simp [lexemesFrom, CharRun.completed, CharRun.next, h c rfl]

/-- A text is read apart from what does not go on with its last lexeme. -/
theorem lexemesFrom_text {text : List Char} {rest : List Segment}
    (h : (CharRun.nothing.behind text).Ends rest) (k : Nat) :
    lexemesFrom .nothing k (text.map .char ++ rest) =
      wordLexemes text ++ lexemesFrom .nothing k rest := by
  rw [lexemesFrom_chars, lexemesFrom_of_ends h, wordLexemes, List.append_assoc]

/-- The lexemes of a text. -/
def lexemes (d : Dialect) (text : String) : List Lexeme :=
  lexemesFrom .nothing 0 (d.segments text)

example : lexemes .mySql "NOT (a<=?) AND 1=1" =
    [.not, .openParen, .other "a", .op .le, .param 0, .closeParen, .op .and, .number 1, .op .eq,
      .number 1] := by decide +kernel

/-! ## Lexemes of tokens -/

/-- The words between the operands and operators of a condition. -/
def conditionWords : List String :=
  ["(", "NOT (", ")", " IN (", ", ", " IS NULL", " IS NOT NULL", "NULL"]

/-- Whether a word among tokens is one of a condition. -/
def KnownWord : Token → Prop
  | .word text => text ∈ conditionWords
  | _ => True

/-- The lexemes of a token. -/
def tokenLexemes (d : Dialect) : Token → List Lexeme
  | .ident name => [.name name]
  | .param index => [.param index]
  | t => wordLexemes (d.tokenText t).toList

/-- A blank or a mark of punctuation does not go on with what stands in front of it. -/
theorem ends_of_isBreak (d : Dialect) (r : CharRun) {t : Token} (h : t.isBreak = true)
    (rest : List Segment) : r.Ends (d.tokenSegments t ++ rest) := by
  have hclass {c : Char} (hc : CharClass.of c = .blank ∨ CharClass.of c = .mark) :
      r.takes c = false := by
    obtain ⟨cls, text⟩ := r
    rcases hc with hc | hc <;> cases cls <;> simp [CharRun.takes, hc]
  intro c hc
  refine hclass ?_
  cases t with
  | op op =>
    have hblank : c = ' ' := by
      simpa [Dialect.tokenSegments, Dialect.tokenText, BinaryOp.text, eq_comm] using hc
    exact .inl (by rw [hblank]; decide)
  | word text =>
    cases hl : text.toList with
    | nil => simp [Token.isBreak, hl] at h
    | cons c' tail =>
      obtain rfl : c' = c := by
        simpa [Dialect.tokenSegments, Dialect.tokenText, hl] using hc
      have hmem : c' ∈ [' ', ')', ',', ';'] := by simpa [Token.isBreak, hl] using h
      simp only [List.mem_cons, List.not_mem_nil, or_false] at hmem
      rcases hmem with rfl | rfl | rfl | rfl <;> decide
  | ident | param | null | truth => simp [Token.isBreak] at h

/-- Nothing goes on with a token that is no operand. -/
theorem ends_of_not_isOperand (d : Dialect) {t : Token} (h : t.isOperand = false)
    (hw : KnownWord t) (rest : List Segment) :
    (CharRun.nothing.behind (d.tokenText t).toList).Ends rest := by
  have hclosed {r : CharRun} (hr : r.cls = .blank ∨ r.cls = .mark) : r.Ends rest := by
    obtain ⟨cls, text⟩ := r
    rcases hr with rfl | rfl <;> exact fun c _ => by simp [CharRun.takes]
  refine hclosed ?_
  cases t with
  | op op =>
    change (CharRun.nothing.behind op.text.toList).cls = .blank ∨ _
    cases op <;> exact .inl (by decide)
  | word text =>
    have hwords : ∀ text ∈ conditionWords, (Token.word text).isOperand = false →
        (CharRun.nothing.behind text.toList).cls = .blank ∨
          (CharRun.nothing.behind text.toList).cls = .mark := by decide
    exact hwords text hw h
  | ident | param | null | truth => simp [Token.isOperand] at h

/-- Readable tokens are read as their lexemes if their parameters are in order. -/
theorem lexemesFrom_tokens {d : Dialect} {tokens : List Token} (h : d.Readable tokens)
    (hwords : ∀ t ∈ tokens, KnownWord t) {k : Nat}
    (hk : indices tokens = List.range' k (indices tokens).length) :
    lexemesFrom .nothing k (tokens.flatMap d.tokenSegments) = tokens.flatMap (tokenLexemes d) := by
  obtain ⟨hf, -⟩ := h
  induction tokens generalizing k with
  | nil => rfl
  | cons t tokens ih =>
    obtain ⟨hword, hrest⟩ := List.forall_mem_cons.mp hwords
    have hends : (CharRun.nothing.behind (d.tokenText t).toList).Ends
        (tokens.flatMap d.tokenSegments) := by
      cases ht : t.isOperand with
      | false => exact ends_of_not_isOperand d ht hword _
      | true =>
        cases tokens with
        | nil => exact fun c hc => by simp at hc
        | cons u tokens => exact ends_of_isBreak d _ ((List.isChain_cons_cons.mp hf).1 ht) _
    rw [List.flatMap_cons, List.flatMap_cons]
    cases t with
    | param index =>
      have hrange : index :: indices tokens = List.range' k ((indices tokens).length + 1) := by
        simpa [Token.index?] using hk
      rw [List.range'_succ, List.cons.injEq] at hrange
      obtain ⟨rfl, hrange⟩ := hrange
      simp [Dialect.tokenSegments, tokenLexemes, lexemesFrom, ← ih hrest hrange hf.of_cons]
    | ident name =>
      have hlexemes := ih hrest (by simpa [Token.index?] using hk) hf.of_cons
      simp [Dialect.tokenSegments, tokenLexemes, lexemesFrom, ← hlexemes]
    | op | null | truth | word =>
      have hlexemes := ih hrest (by simpa [Token.index?] using hk) hf.of_cons
      rw [← hlexemes]
      exact lexemesFrom_text hends k

/-- The lexemes of the text of readable tokens. -/
theorem lexemes_chars {d : Dialect} {tokens : List Token} (h : d.Readable tokens)
    (hwords : ∀ t ∈ tokens, KnownWord t)
    (hk : indices tokens = List.range (indices tokens).length) :
    lexemes d (String.ofList (d.chars tokens)) = tokens.flatMap (tokenLexemes d) := by
  rw [lexemes, Dialect.segments, String.toList_ofList, d.segmentsFrom_chars h]
  exact lexemesFrom_tokens h hwords (by rwa [← List.range_eq_range'])

end SqlCompose.Sql
