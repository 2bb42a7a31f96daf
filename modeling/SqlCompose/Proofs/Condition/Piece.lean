import SqlCompose.Proofs.Condition.Lexeme
import SqlCompose.Proofs.Condition.Truth
import SqlCompose.Query.NullTest

/-!
# Pieces of a condition

A condition is written in pieces: operands, operators, words, and operators with a null operand
behind them. Null tests are put into the text of a condition by replacing phrases; if the columns
have plain names, no phrase occurs but in the pieces that are meant (`Sql.replaceAll_text`).
-/

namespace SqlCompose.Sql

/-! ## Plain names -/

/-- Whether a character is a letter, a digit or an underscore; outside of ASCII all are letters. -/
def isPlainChar (c : Char) : Bool := c.isAlphanum || c == '_' || decide (128 ≤ c.toNat)

/-- Whether a name consists of letters, digits and underscores. -/
def IsPlain (name : String) : Prop := ∀ c ∈ name.toList, isPlainChar c = true

instance (name : String) : Decidable (IsPlain name) := by unfold IsPlain; infer_instance

/-- The characters that null tests are found by. -/
def structural : List Char := [' ', '(', ')', '<', '>', '=']

/-- No plain character is one that null tests are found by. -/
theorem not_structural_of_isPlainChar {c : Char} (h : isPlainChar c = true) : c ∉ structural := by
  have hall : ∀ c ∈ structural, isPlainChar c = false := by decide
  exact fun hc => by simp [hall c hc] at h

/-! ## Pieces -/

/-- The token of an operand; a number is written as its digits. -/
def Term.token : Term → Token
  | .column name => .ident name
  | .param index => .param index
  | .number n => .word (toString n)
  | .null => .null

/-- Whether an operand is one that a query can have, a column under a name of some kind. -/
def Term.Under (P : String → Prop) : Term → Prop
  | .column name => P name
  | .param _ | .null => True
  | .number _ => False

/-- Whether an operand is one that a query can have, a column under a plain name. -/
def Term.Plain (x : Term) : Prop := x.Under IsPlain

/-- A piece of a condition. -/
inductive Piece where
  | term (x : Term)
  | op (op : BinaryOp)
  /-- A comparison with a null operand behind it. -/
  | nullTest (op : BinaryOp)
  | truth (b : Bool)
  | word (text : String)
deriving DecidableEq

namespace Piece

/-- The tokens of a piece. -/
def tokens : Piece → List Token
  | .term x => [x.token]
  | .op o => [.op o]
  | .nullTest o => [.op o, .null]
  | .truth b => [.truth b]
  | .word text => [.word text]

/-- Whether a piece is one that a condition can have. -/
def Plain : Piece → Prop
  | .term x => x.Plain
  | .word text => text ∈ conditionWords
  | _ => True

/-- Whether something has to stand between a piece and an operand behind it. -/
def isOperand : Piece → Bool
  | .op _ => false
  | .word text => (Token.word text).isOperand
  | _ => true

/-- Whether a piece can stand behind an operand. -/
def isBreak : Piece → Bool
  | .op _ | .nullTest _ => true
  | .word text => (Token.word text).isBreak
  | _ => false

/-- Whether a piece can stand behind another one; a comparison with null is one piece. -/
def Follows (a b : Piece) : Prop :=
  (a.isOperand = true → b.isBreak = true) ∧
    ∀ o : BinaryOp, o.isEquality = true → a = .op o → b ≠ .term .null

end Piece

/-- Pieces of which each can stand behind the one in front of it. -/
structure Tidy (ps : List Piece) : Prop where
  chain : ps.IsChain Piece.Follows
  plain : ∀ p ∈ ps, p.Plain

/-- Tidy pieces are tidy without the first one. -/
theorem Tidy.of_cons {p : Piece} {ps : List Piece} (h : Tidy (p :: ps)) : Tidy ps :=
  ⟨h.chain.of_cons, (List.forall_mem_cons.mp h.plain).2⟩

/-- The last of tidy pieces are tidy on their own. -/
theorem Tidy.of_append {ps qs : List Piece} (h : Tidy (ps ++ qs)) : Tidy qs := by
  induction ps with
  | nil => exact h
  | cons p ps ih => exact ih h.of_cons

variable (d : Dialect)

/-- The text of a piece. -/
def pieceText (p : Piece) : List Char := d.chars p.tokens

/-- The text of pieces. -/
def text (ps : List Piece) : List Char := d.chars (ps.flatMap Piece.tokens)

@[simp] theorem text_nil : text d [] = [] := rfl

@[simp] theorem text_cons (p : Piece) (ps : List Piece) :
    text d (p :: ps) = pieceText d p ++ text d ps := by simp [text, pieceText]

@[simp] theorem text_append (ps qs : List Piece) :
    text d (ps ++ qs) = text d ps ++ text d qs := by simp [text]

@[simp] theorem pieceText_op (op : BinaryOp) : pieceText d (.op op) = op.text.toList := by
  simp [pieceText, Piece.tokens, Dialect.tokenText]

@[simp] theorem pieceText_nullTest (op : BinaryOp) :
    pieceText d (.nullTest op) = op.text.toList ++ nullMark.toList := by
  simp [pieceText, Piece.tokens, Dialect.tokenText]

@[simp] theorem pieceText_word (word : String) : pieceText d (.word word) = word.toList := by
  simp [pieceText, Piece.tokens, Dialect.tokenText]

@[simp] theorem pieceText_null : pieceText d (.term .null) = nullMark.toList := by
  simp [pieceText, Piece.tokens, Term.token, Dialect.tokenText]

variable {d}

/-! ## The characters of pieces -/

/-- A quoted name holds its own characters and quotes. -/
theorem mem_quoteChars {name : List Char} {c : Char} (h : c ∈ d.quoteChars name) :
    c = d.openQuote ∨ c = d.closeQuote ∨ c ∈ name := by
  have hdouble : c ∈ Text.doubling d.closeQuote name → c = d.closeQuote ∨ c ∈ name := by
    simp only [Text.doubling, List.mem_flatMap]
    rintro ⟨b, hb, hc⟩
    split at hc
    · exact .inl (by simpa using hc)
    · exact .inr (by rw [List.mem_singleton.mp hc]; exact hb)
  simp only [Dialect.quoteChars, List.mem_append, List.mem_cons, List.not_mem_nil, or_false] at h
  tauto

/-- The text of an operand or a truth value holds no blank and no parenthesis, and no mark of an
absent value unless it is that mark. -/
theorem not_mem_operand {p : Piece} (h : p.Plain) (hp : (∃ x, p = .term x) ∨ ∃ b, p = .truth b)
    {c : Char} (hc : c ∈ [' ', '(', ')', '<']) (hnull : p = .term .null → c ≠ '<') :
    c ∉ pieceText d p := by
  intro hmem
  rcases hp with ⟨x, rfl⟩ | ⟨b, rfl⟩
  · cases x with
    | column name =>
      simp only [pieceText, Piece.tokens, Term.token, Dialect.chars_cons, Dialect.tokenText,
        Dialect.toList_quote, Dialect.chars_nil, List.append_nil] at hmem
      rcases mem_quoteChars hmem with rfl | rfl | hmem
      · cases d <;> revert hc <;> decide
      · cases d <;> revert hc <;> decide
      · refine not_structural_of_isPlainChar (h c hmem) ?_
        simp only [List.mem_cons, List.not_mem_nil, or_false] at hc
        rcases hc with rfl | rfl | rfl | rfl <;> decide
    | param index =>
      obtain ⟨digits, heq, hdigits⟩ := d.placeholder_eq index
      simp only [pieceText, Piece.tokens, Term.token, Dialect.chars_cons, Dialect.tokenText, heq,
        Dialect.chars_nil, List.append_nil, List.mem_cons] at hmem
      simp only [List.mem_cons, List.not_mem_nil, or_false] at hc
      rcases hmem with hmem | hmem
      · rcases hc with rfl | rfl | rfl | rfl <;> cases d <;> revert hmem <;> decide
      · have hgo := hdigits c hmem
        rcases hc with rfl | rfl | rfl | rfl <;> cases d <;> revert hgo <;> decide
    | number n => exact h
    | null =>
      have hlt := hnull rfl
      rw [pieceText_null] at hmem
      revert c
      decide
  · clear hnull
    simp only [pieceText, Piece.tokens, Dialect.chars_cons, Dialect.tokenText, Dialect.chars_nil,
      List.append_nil] at hmem
    revert c
    cases d <;> cases b <;> decide

/-- Which tokens begin with a sign of comparison or a closing parenthesis. -/
theorem head_chars {ts : List Token} (h : ∀ t ∈ ts, KnownWord t) {c : Char}
    (hc : (d.chars ts).head? = some c) (hmem : c ∈ ['<', '>', '=', ')']) :
    ts.head? = some .null ∧ c = '<' ∨ ts.head? = some (.word ")") ∧ c = ')' := by
  cases ts with
  | nil => simp at hc
  | cons t ts =>
    have ht := (List.forall_mem_cons.mp h).1
    rw [Dialect.chars_cons] at hc
    cases t with
    | ident name =>
      obtain rfl : d.openQuote = c := by
        simpa [Dialect.tokenText, Dialect.quoteChars] using hc
      exact absurd hmem (by cases d <;> decide)
    | param index =>
      obtain ⟨digits, heq, -⟩ := d.placeholder_eq index
      obtain rfl : d.markStart = c := by simpa [Dialect.tokenText, heq] using hc
      exact absurd hmem (by cases d <;> decide)
    | null => exact .inl ⟨rfl, by simpa [Dialect.tokenText, nullMark, eq_comm] using hc⟩
    | op o =>
      obtain rfl : ' ' = c := by simpa [Dialect.tokenText, BinaryOp.text] using hc
      simp at hmem
    | truth b =>
      have hhead : ((d.truth b).toList.head?.any fun a => a ∉ ['<', '>', '=', ')']) = true := by
        cases d <;> cases b <;> decide
      obtain ⟨a, ha, hnot⟩ := (Option.any_eq_true _ _).mp hhead
      obtain rfl : a = c := by simpa [Dialect.tokenText, ha] using hc
      exact absurd hmem (of_decide_eq_true hnot)
    | word word =>
      have hwords : ∀ word ∈ conditionWords, (word.toList.head?.any fun a =>
          word = ")" ∧ a = ')' ∨ a ∉ ['<', '>', '=', ')']) = true := by decide
      obtain ⟨a, ha, hword⟩ := (Option.any_eq_true _ _).mp (hwords word ht)
      obtain rfl : a = c := by simpa [Dialect.tokenText, ha] using hc
      rcases of_decide_eq_true hword with ⟨rfl, rfl⟩ | hnot
      · exact .inr ⟨rfl, rfl⟩
      · exact absurd hmem hnot

/-- The words among the tokens of pieces are those of a condition. -/
theorem knownWord_tokens {ps : List Piece} (h : ∀ p ∈ ps, p.Plain) :
    ∀ t ∈ ps.flatMap Piece.tokens, KnownWord t := by
  intro t ht
  obtain ⟨p, hp, ht⟩ := List.mem_flatMap.mp ht
  have hplain := h p hp
  cases p with
  | term x =>
    obtain rfl := List.mem_singleton.mp ht
    cases x with
    | column | param | null => trivial
    | number n => exact hplain.elim
  | op | truth =>
    obtain rfl := List.mem_singleton.mp ht
    trivial
  | nullTest o =>
    simp only [Piece.tokens, List.mem_cons, List.not_mem_nil, or_false] at ht
    rcases ht with rfl | rfl <;> trivial
  | word word =>
    obtain rfl := List.mem_singleton.mp ht
    exact hplain

/-- Which pieces begin with a sign of comparison or a closing parenthesis. -/
theorem head_text {ps : List Piece} (h : Tidy ps) {c : Char} (hc : (text d ps).head? = some c)
    (hmem : c ∈ ['<', '>', '=', ')']) :
    ps.head? = some (.term .null) ∧ c = '<' ∨ ps.head? = some (.word ")") ∧ c = ')' := by
  have hhead := head_chars (knownWord_tokens h.plain) hc hmem
  cases ps with
  | nil => simp at hc
  | cons p ps =>
    have hplain := (List.forall_mem_cons.mp h.plain).1
    cases p with
    | term x =>
      cases x with
      | number n => exact hplain.elim
      | null => exact .inl ⟨rfl, (hhead.resolve_right (by simp [Piece.tokens, Term.token])).2⟩
      | column | param => simp [Piece.tokens, Term.token] at hhead
    | word word => simpa [Piece.tokens] using hhead
    | op | nullTest | truth => simp [Piece.tokens] at hhead

/-- A phrase does not begin where another character stands. -/
theorem not_prefix_of_head? {c : Char} {phrase rest : List Char} (h : rest.head? ≠ some c) :
    ¬ c :: phrase <+: rest := by
  rintro ⟨tail, rfl⟩
  exact h rfl

/-! ## Replacing null tests -/

open Text (replaceAll NoneBegins)

/-- The text of a comparison with a null operand. -/
def nullPhrase (o : BinaryOp) : List Char := o.text.toList ++ nullMark.toList

/-- A comparison with a null operand begins with a blank. -/
theorem nullPhrase_eq_cons (o : BinaryOp) : ∃ phrase, nullPhrase o = ' ' :: phrase := by
  simp [nullPhrase, BinaryOp.text]

/-- A comparison with a null operand has a text. -/
theorem nullPhrase_ne_nil (o : BinaryOp) : nullPhrase o ≠ [] := by
  obtain ⟨phrase, h⟩ := nullPhrase_eq_cons o
  simp [h]

/-- Pieces do not begin with the part of a null test that stands behind its first blank. -/
theorem not_prefix_text {o : BinaryOp} (ho : o.isEquality = true) {ps : List Piece} (h : Tidy ps) :
    ¬ o.word.toList ++ ' ' :: nullMark.toList <+: text d ps := by
  rintro ⟨tail, htail⟩
  cases o with
  | eq =>
    have hhead : (text d ps).head? = some '=' := by
      rw [← htail]
      rfl
    simpa using head_text h hhead (by simp)
  | ne =>
    have hhead : (text d ps).head? = some '<' := by
      rw [← htail]
      rfl
    obtain ⟨rest, rfl⟩ : ∃ rest, ps = .term .null :: rest := by
      simpa [List.head?_eq_some_iff] using head_text h hhead (by simp)
    simp [BinaryOp.word, nullMark] at htail
  | _ => cases ho

/-- Behind a comparison that is a piece of its own, no null operand stands. -/
theorem not_null_prefix_text {o : BinaryOp} (ho : o.isEquality = true) {ps : List Piece}
    (h : Tidy (.op o :: ps)) : ¬ nullMark.toList <+: text d ps := by
  refine not_prefix_of_head? fun hhead => ?_
  have hhead : (text d ps).head? = some '<' := hhead
  obtain ⟨rest, rfl⟩ : ∃ rest, ps = .term .null :: rest := by
    simpa [List.head?_eq_some_iff] using head_text h.of_cons hhead (by simp)
  exact (List.isChain_cons_cons.mp h.chain).1.2 o ho rfl rfl

/-- Only a piece that is one begins a null test. -/
theorem noneBegins_pieceText {o : BinaryOp} (ho : o.isEquality = true) {p : Piece}
    {ps : List Piece} (h : Tidy (p :: ps)) (hp : p ≠ .nullTest o) :
    NoneBegins (nullPhrase o) (pieceText d p) (text d ps) := by
  have hplain := (List.forall_mem_cons.mp h.plain).1
  have hword := not_prefix_text (d := d) ho h.of_cons
  have hblank {p : Piece} (hp : ' ' ∉ pieceText d p) :
      NoneBegins (nullPhrase o) (pieceText d p) (text d ps) := by
    obtain ⟨phrase, hphrase⟩ := nullPhrase_eq_cons o
    rw [hphrase]
    exact Text.noneBegins_of_not_mem hp
  cases p with
  | term x => exact hblank (not_mem_operand hplain (.inl ⟨x, rfl⟩) (by simp) (by simp))
  | truth b => exact hblank (not_mem_operand hplain (.inr ⟨b, rfl⟩) (by simp) (by simp))
  | op o' =>
    have hnull : o' = o → ¬ nullMark.toList <+: text d ps := by
      rintro rfl
      exact not_null_prefix_text ho h
    cases o <;> cases ho <;> cases o' <;>
      simp_all [nullPhrase, BinaryOp.text, BinaryOp.word, nullMark]
  | nullTest o' =>
    cases o <;> cases ho <;> cases o' <;>
      simp_all [nullPhrase, BinaryOp.text, BinaryOp.word, nullMark]
  | word word =>
    simp only [Piece.Plain, conditionWords, List.mem_cons, List.not_mem_nil, or_false] at hplain
    rcases hplain with rfl | rfl | rfl | rfl | rfl | rfl | rfl | rfl <;> cases o <;> cases ho <;>
      simp_all [nullPhrase, BinaryOp.text, BinaryOp.word, nullMark]

/-- A null test of one kind written out. -/
def Piece.writeTest (o : BinaryOp) (word : String) : Piece → Piece
  | .nullTest o' => if o' = o then .word word else .nullTest o'
  | p => p

/-- Replacing a comparison with a null operand writes the null tests out. -/
theorem replaceAll_text {o : BinaryOp} (ho : o.isEquality = true) (word : String)
    {ps : List Piece} (h : Tidy ps) :
    replaceAll (nullPhrase o) word.toList (text d ps) = text d (ps.map (.writeTest o word)) := by
  induction ps with
  | nil => exact Text.replaceAll_nil (nullPhrase_ne_nil o) _
  | cons p ps ih =>
    rw [text_cons, List.map_cons, text_cons, ← ih h.of_cons]
    by_cases hp : p = .nullTest o
    · have hphrase : pieceText d p = nullPhrase o := by simp [hp, nullPhrase]
      rw [hphrase, Text.replaceAll_phrase_append (nullPhrase_ne_nil o)]
      simp [hp, Piece.writeTest]
    · have hkeep : p.writeTest o word = p := by
        cases p with
        | nullTest o' => exact if_neg fun heq : o' = o => hp (by rw [heq])
        | _ => rfl
      rw [Text.replaceAll_append (nullPhrase_ne_nil o) _ (noneBegins_pieceText ho h hp), hkeep]

/-- Writing null tests out leaves pieces tidy. -/
theorem Tidy.writeTest {o : BinaryOp} {word : String} (hword : word ∈ [" IS NULL", " IS NOT NULL"])
    {ps : List Piece} (h : Tidy ps) : Tidy (ps.map (.writeTest o word)) := by
  have hwords : ∀ word ∈ [" IS NULL", " IS NOT NULL"], (Piece.word word).isOperand = true ∧
      (Piece.word word).isBreak = true ∧ word ∈ conditionWords := by decide
  obtain ⟨hoperand, hbreak, hknown⟩ := hwords word hword
  have hkind (p : Piece) : (p.writeTest o word).isOperand = p.isOperand ∧
      (p.writeTest o word).isBreak = p.isBreak := by
    cases p with
    | nullTest o' =>
      by_cases ho : o' = o
      · simp only [Piece.writeTest, ho, if_true, hoperand, hbreak]
        exact ⟨rfl, rfl⟩
      · simp [Piece.writeTest, ho]
    | _ => exact ⟨rfl, rfl⟩
  have hsame {p q : Piece} (hq : ∀ o, q ≠ .nullTest o) (hq' : ∀ w, q ≠ .word w)
      (heq : p.writeTest o word = q) : p = q := by
    cases p with
    | nullTest o' =>
      by_cases ho : o' = o
      · exact absurd (by simpa [Piece.writeTest, ho] using heq.symm) (hq' word)
      · exact absurd (by simpa [Piece.writeTest, ho] using heq.symm) (hq o')
    | _ => exact heq
  constructor
  · refine (List.isChain_map _).mpr (h.chain.imp fun a b hab => ?_)
    refine ⟨by rw [(hkind a).1, (hkind b).2]; exact hab.1, fun o' ho' ha hb => ?_⟩
    exact hab.2 o' ho' (hsame (by simp) (by simp) ha) (hsame (by simp) (by simp) hb)
  · intro q hq
    obtain ⟨p, hp, rfl⟩ := List.mem_map.mp hq
    have hplain := h.plain p hp
    cases p with
    | nullTest o' =>
      by_cases ho : o' = o
      · simpa [Piece.writeTest, ho, Piece.Plain] using hknown
      · simp [Piece.writeTest, ho, Piece.Plain]
    | _ => exact hplain

end SqlCompose.Sql
