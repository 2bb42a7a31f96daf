import SqlCompose.Proofs.Condition.Settling

/-!
# Conditions with their null tests

Putting null tests into a condition is three replacements with the settling of groups between them.
On the pieces of a condition all of them are known, so the finished text is that of tokens again
(`Sql.finishChars_text`), and these tokens are read back (`Sql.lexemes_finish`).
-/

namespace SqlCompose.Sql

open Text (replaceAll NoneBegins)
open NullTest

variable {d : Dialect}

/-! ## Null operands that are left -/

/-- A null operand written as the literal. -/
def namedToken : Token → Token
  | .null => .word nullWord
  | t => t

/-- The tokens of pieces whose null tests have been written out. -/
def namedTokens (ps : List Piece) : List Token := (ps.flatMap Piece.tokens).map namedToken

@[simp] theorem namedTokens_nil : namedTokens [] = [] := rfl

@[simp] theorem namedTokens_cons (p : Piece) (ps : List Piece) :
    namedTokens (p :: ps) = p.tokens.map namedToken ++ namedTokens ps := by simp [namedTokens]

@[simp] theorem namedTokens_append (ps qs : List Piece) :
    namedTokens (ps ++ qs) = namedTokens ps ++ namedTokens qs := by simp [namedTokens]

/-- The mark of null begins with the sign of a comparison. -/
theorem nullMark_eq : nullMark.toList = '<' :: "NULL>".toList := by decide

/-- A mark of null in front of a text becomes the literal. -/
theorem replaceAll_null_append (rest : List Char) :
    replaceAll nullMark.toList nullWord.toList (nullMark.toList ++ rest) =
      nullWord.toList ++ replaceAll nullMark.toList nullWord.toList rest :=
  Text.replaceAll_phrase_append (by decide) _ rest

/-- Text without a mark of an absent value stays. -/
theorem replaceAll_null_of_not_mem {text : List Char} (h : '<' ∉ text) (rest : List Char) :
    replaceAll nullMark.toList nullWord.toList (text ++ rest) =
      text ++ replaceAll nullMark.toList nullWord.toList rest := by
  refine Text.replaceAll_append (by decide) _ ?_
  rw [nullMark_eq]
  exact Text.noneBegins_of_not_mem h

/-- No mark of null begins in an operator. -/
theorem replaceAll_null_op (o : BinaryOp) (rest : List Char) :
    replaceAll nullMark.toList nullWord.toList (o.text.toList ++ rest) =
      o.text.toList ++ replaceAll nullMark.toList nullWord.toList rest := by
  refine Text.replaceAll_append (by decide) _ ?_
  cases o <;> simp [BinaryOp.text, BinaryOp.word, nullMark]

/-- Replacing the mark of an absent value names the null operands that are left. -/
theorem replaceAll_null {ps : List Piece} (h : Tidy ps) :
    replaceAll nullMark.toList nullWord.toList (text d ps) = d.chars (namedTokens ps) := by
  induction ps with
  | nil => exact Text.replaceAll_nil (by decide) _
  | cons p ps ih =>
    have hplain := (List.forall_mem_cons.mp h.plain).1
    have hrest := ih h.of_cons
    have hkeep (hp : '<' ∉ pieceText d p) (hsame : p.tokens.map namedToken = p.tokens) :
        replaceAll nullMark.toList nullWord.toList (text d (p :: ps)) =
          d.chars (namedTokens (p :: ps)) := by
      rw [text_cons, replaceAll_null_of_not_mem hp, hrest, namedTokens_cons, hsame,
        Dialect.chars_append, pieceText]
    cases p with
    | term x =>
      by_cases hx : x = .null
      · subst hx
        rw [text_cons, pieceText_null, replaceAll_null_append, hrest]
        simp [Piece.tokens, Term.token, namedToken, Dialect.tokenText]
      · refine hkeep (not_mem_operand hplain (.inl ⟨x, rfl⟩) (by simp) (by simpa using hx)) ?_
        cases x <;> first | rfl | exact absurd rfl hx
    | truth b => exact hkeep (not_mem_operand hplain (.inr ⟨b, rfl⟩) (by simp) (by simp)) rfl
    | op o =>
      rw [text_cons, pieceText_op, replaceAll_null_op, hrest]
      simp [Piece.tokens, namedToken, Dialect.tokenText]
    | nullTest o =>
      rw [text_cons, pieceText_nullTest, List.append_assoc, replaceAll_null_op,
        replaceAll_null_append, hrest]
      simp [Piece.tokens, namedToken, Dialect.tokenText]
    | word word =>
      have hwords : ∀ word ∈ conditionWords, '<' ∉ word.toList := by decide
      exact hkeep (by simpa using hwords word hplain) rfl

/-! ## All passes -/

/-- The finished tokens of settled pieces. -/
def finished (qs : List Piece) : List Token :=
  namedTokens (qs.map (.writeTest .ne " IS NOT NULL"))

/-- Whether pieces settle as other pieces, once tests for absence have been written out. -/
def Finishes (ps qs : List Piece) : Prop :=
  Settles false (ps.map (.writeTest .eq " IS NULL")) qs

/-- What is in front of settled pieces can stand behind the same. -/
theorem Settles.follows {b : Bool} {ps qs : List Piece} (h : Settles b ps qs) {a : Piece}
    (ha : ∀ p ∈ ps.head?, a.Follows p) : ∀ q ∈ qs.head?, a.Follows q := by
  have hopening (hp : a.Follows (.word "(")) : a.Follows (.word "NOT (") :=
    ⟨fun ho => absurd (hp.1 ho) (by decide), fun o ho heq => by simp⟩
  cases h with
  | sole =>
    intro q hq
    obtain rfl : .word "NOT (" = q := by simpa using hq
    exact hopening (ha _ rfl)
  | nil => simp
  | _ => exact fun q hq => ha q hq

/-- A test for absence can stand where an inequality with null does. -/
theorem Tidy.settle_sole {us ps qs : List Piece} (h : Tidy (us ++ .nullTest .ne :: ps))
    (hq : Tidy (.word " IS NULL" :: qs)) : Tidy (us ++ .word " IS NULL" :: qs) := by
  induction us with
  | nil => exact hq
  | cons u us ih =>
    have htidy : Tidy (u :: (us ++ .nullTest .ne :: ps)) := h
    have hrest := ih htidy.of_cons
    refine ⟨List.isChain_cons.mpr ⟨fun q hhead => ?_, hrest.chain⟩,
      List.forall_mem_cons.mpr ⟨(List.forall_mem_cons.mp htidy.plain).1, hrest.plain⟩⟩
    cases us with
    | nil =>
      obtain rfl : .word " IS NULL" = q := by simpa using hhead
      exact ⟨fun _ => by decide, by simp⟩
    | cons v us => exact (List.isChain_cons.mp htidy.chain).1 q (by simpa using hhead)

/-- Pieces stay tidy when their groups are settled. -/
theorem Settles.tidy {b : Bool} {ps qs : List Piece} (h : Settles b ps qs) (ht : Tidy ps) :
    Tidy qs := by
  have hcons {p : Piece} {ps qs : List Piece} {b : Bool} (h : Settles b ps qs)
      (ht : Tidy (p :: ps)) (hq : Tidy qs) : Tidy (p :: qs) :=
    ⟨List.isChain_cons.mpr ⟨h.follows (List.isChain_cons.mp ht.chain).1, hq.chain⟩,
      List.forall_mem_cons.mpr ⟨(List.forall_mem_cons.mp ht.plain).1, hq.plain⟩⟩
  induction h with
  | nil => exact ht
  | inner _ h ih | op h ih | test _ h ih | opened h ih | members h ih | negated h ih
    | closed h ih => exact hcons h ht (ih ht.of_cons)
  | ending h ih => exact hcons (.closed (b := false) h) ht (hcons h ht.of_cons (ih ht.of_cons.of_cons))
  | @sole b us ps qs hus h ih =>
    have hbody : Tidy (us ++ .nullTest .ne :: .word ")" :: ps) := ht.of_cons
    have hend : Tidy (.word ")" :: ps) := hbody.of_append.of_cons
    have hclosed : Tidy (.word ")" :: qs) := hcons h hend (ih hend.of_cons)
    have hsettled : Tidy (.word " IS NULL" :: .word ")" :: qs) := by
      refine ⟨.cons_cons ⟨fun _ => by decide, by simp⟩ hclosed.chain, ?_⟩
      exact List.forall_mem_cons.mpr ⟨(by decide : " IS NULL" ∈ conditionWords), hclosed.plain⟩
    have hrest := hbody.settle_sole hsettled
    refine ⟨List.isChain_cons.mpr ⟨fun q _ => ⟨fun ho => absurd ho (by decide), by simp⟩, hrest.chain⟩,
      ?_⟩
    exact List.forall_mem_cons.mpr ⟨(by decide : "NOT (" ∈ conditionWords), hrest.plain⟩

/-- The text of a condition with its null tests is that of the finished tokens. -/
theorem finishChars_text {ps qs : List Piece} (h : Finishes ps qs) (ht : Tidy ps) :
    finishChars (text d ps) = d.chars (finished qs) := by
  have heq : replaceAll equalsNull " IS NULL".toList (text d ps) = _ := replaceAll_text rfl _ ht
  have hone : Tidy (ps.map (.writeTest .eq " IS NULL")) := ht.writeTest (by simp)
  have hsettle : settleGroups (text d (ps.map (.writeTest .eq " IS NULL"))) = text d qs :=
    settleFrom_text h hone pending_false
  have htwo := h.tidy hone
  have hne : replaceAll differsFromNull " IS NOT NULL".toList (text d qs) = _ :=
    replaceAll_text rfl _ htwo
  rw [finishChars, heq, hsettle, hne, replaceAll_null (htwo.writeTest (by simp)), finished]

/-! ## Reading the finished tokens -/

/-- The tokens of a piece are readable. -/
theorem readable_piece {p : Piece} (h : p.Plain) : d.Readable (p.tokens.map namedToken) := by
  have hword {word : String} (hw : word ∈ conditionWords) : d.Readable [.word word] := by
    have hwords : ∀ word ∈ conditionWords, d.IsClean word.toList := by cases d <;> decide
    exact .singleton (hwords word hw)
  cases p with
  | term x =>
    cases x with
    | column | param => exact .singleton trivial
    | number n => exact h.elim
    | null => exact hword (by decide)
  | op | truth => exact .singleton trivial
  | nullTest o =>
    have hop : d.Readable [.op o] := .singleton trivial
    have hnull : d.Readable [.word nullWord] := hword (by decide)
    exact hop.append hnull
      (.inl (by simp [Token.EndOpen, Token.isOperand]))
  | word word => exact hword h

/-- Anything can stand behind a piece that is no operand. -/
theorem endOpen_piece {p : Piece} (h : p.isOperand = false) :
    Token.EndOpen (p.tokens.map namedToken) := by
  cases p with
  | op o => simp [Token.EndOpen, Piece.tokens, namedToken, Token.isOperand]
  | word word =>
    have hword : (Token.word word).isOperand = false := h
    simpa [Token.EndOpen, Piece.tokens, namedToken] using hword
  | term | nullTest | truth => cases h

/-- Pieces of which the first can stand behind anything have such tokens. -/
theorem beginBroken_namedTokens {ps : List Piece} (h : ∀ p ∈ ps.head?, p.isBreak = true) :
    Token.BeginBroken (namedTokens ps) := by
  cases ps with
  | nil => simp [Token.BeginBroken]
  | cons p ps =>
    have hp : p.isBreak = true := h p rfl
    rw [namedTokens_cons]
    cases p with
    | op | nullTest => exact Token.beginBroken_cons rfl _
    | word word => exact Token.beginBroken_cons (t := .word word) hp _
    | term | truth => cases hp

/-- The tokens of tidy pieces can be read back. -/
theorem readable_namedTokens {ps : List Piece} (h : Tidy ps) : d.Readable (namedTokens ps) := by
  induction ps with
  | nil => exact .nil
  | cons p ps ih =>
    obtain ⟨hfollows, -⟩ := List.isChain_cons.mp h.chain
    have hplain := (List.forall_mem_cons.mp h.plain).1
    have hrest := ih h.of_cons
    rw [namedTokens_cons]
    refine (readable_piece hplain).append hrest ?_
    cases hp : p.isOperand with
    | false => exact .inl (endOpen_piece hp)
    | true => exact .inr (beginBroken_namedTokens fun q hq => (hfollows q hq).1 hp)

/-- The words in the text of tidy pieces are those of conditions. -/
theorem knownWord_namedTokens {ps : List Piece} (h : Tidy ps) :
    ∀ t ∈ namedTokens ps, KnownWord t := by
  intro t ht
  obtain ⟨u, hu, rfl⟩ := List.mem_map.mp ht
  have hknown := knownWord_tokens h.plain u hu
  cases u with
  | null => exact (by decide : nullWord ∈ conditionWords)
  | ident | param | op | truth | word => exact hknown

/-- The indices of the parameters among pieces, in their order. -/
def pieceIndices (ps : List Piece) : List Nat := indices (ps.flatMap Piece.tokens)

@[simp] theorem pieceIndices_cons (p : Piece) (ps : List Piece) :
    pieceIndices (p :: ps) = indices p.tokens ++ pieceIndices ps := by simp [pieceIndices]

@[simp] theorem pieceIndices_append (ps qs : List Piece) :
    pieceIndices (ps ++ qs) = pieceIndices ps ++ pieceIndices qs := by simp [pieceIndices]

/-- Writing null as the literal keeps the parameters. -/
theorem indices_namedTokens (ps : List Piece) : indices (namedTokens ps) = pieceIndices ps := by
  have hindex (t : Token) : (namedToken t).index? = t.index? := by cases t <;> rfl
  simp [namedTokens, pieceIndices, indices, List.filterMap_map, hindex]

/-- Writing null tests out keeps the parameters. -/
theorem pieceIndices_writeTest (o : BinaryOp) (word : String) (ps : List Piece) :
    pieceIndices (ps.map (.writeTest o word)) = pieceIndices ps := by
  induction ps with
  | nil => rfl
  | cons p ps ih =>
    have hp : indices (p.writeTest o word).tokens = indices p.tokens := by
      cases p with
      | nullTest o' =>
        by_cases ho : o' = o <;>
          simp [Piece.writeTest, ho, Piece.tokens, Token.index?]
      | _ => rfl
    rw [List.map_cons, pieceIndices_cons, pieceIndices_cons, hp, ih]

/-- Settling pieces keeps their parameters. -/
theorem pieceIndices_settles {b : Bool} {ps qs : List Piece} (h : Settles b ps qs) :
    pieceIndices qs = pieceIndices ps := by
  induction h with
  | nil => rfl
  | sole _ _ ih | ending _ ih => simp [ih, Piece.tokens, Token.index?]
  | _ => simp_all

/-- Finishing keeps the parameters and their order. -/
theorem indices_finished {ps qs : List Piece} (h : Finishes ps qs) :
    indices (finished qs) = pieceIndices ps := by
  rw [finished, indices_namedTokens, pieceIndices_writeTest, pieceIndices_settles h,
    pieceIndices_writeTest]

/-- A condition with its null tests is read as its finished tokens. -/
theorem lexemes_finish {ps qs : List Piece} (h : Finishes ps qs) (ht : Tidy ps)
    (hindices : pieceIndices ps = List.range (pieceIndices ps).length) :
    lexemes d (NullTest.finish (d.write (ps.flatMap Piece.tokens))) =
      (finished qs).flatMap (tokenLexemes d) := by
  have htidy : Tidy (qs.map (.writeTest .ne " IS NOT NULL")) :=
    (h.tidy (ht.writeTest (by simp))).writeTest (by simp)
  have htext : (d.write (ps.flatMap Piece.tokens)).toList = text d ps := d.toList_write _
  rw [NullTest.finish, htext, finishChars_text h ht]
  refine lexemes_chars (readable_namedTokens htidy) (knownWord_namedTokens htidy) ?_
  rwa [← indices_finished h] at hindices

end SqlCompose.Sql
