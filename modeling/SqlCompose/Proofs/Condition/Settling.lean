import SqlCompose.Proofs.Condition.Piece
import SqlCompose.Proofs.Dialect.Rewording

/-!
# Settling groups

Within the passes that put null tests into a text, one looks for parentheses around an inequality
with null and turns them into a negation. `Sql.Settles` says what becomes of pieces, and
`Sql.settleGroups_text` that the text becomes theirs. The pass works on the text between two
inequalities that end a parenthesis; of that text, all that matters is what stands behind the last
parenthesis, and whether it is preceded by `NOT`.
-/

namespace SqlCompose.Sql

open Text (NoneBegins splitOn splitLast consFirst)
open NullTest
open Dialect (groupEnd)

/-! ## Settling from what is pending -/

/-- The end of a group has a text. -/
theorem groupEnd_ne_nil : groupEnd ≠ [] := by decide

/-- A text settled, behind text that has been passed over and waits. -/
def settleFrom (pending text : List Char) : List Char :=
  settlePieces (pending.foldr consFirst (splitOn groupEnd text))

/-- With nothing behind it, what waits stays as it is. -/
theorem settleFrom_nil (p : List Char) : settleFrom p [] = p := by
  rw [settleFrom, Text.splitOn_nil groupEnd_ne_nil, Text.foldr_consFirst, List.append_nil, settlePieces]

/-- Text in which no group ends waits. -/
theorem settleFrom_append {a text : List Char} (h : NoneBegins groupEnd a text) (p : List Char) :
    settleFrom p (a ++ text) = settleFrom (p ++ a) text := by
  rw [settleFrom, Text.splitOn_append groupEnd_ne_nil h, ← List.foldr_append, settleFrom]

/-- At the end of a group the text that waits is settled. -/
theorem settleFrom_groupEnd (p text : List Char) :
    settleFrom p (groupEnd ++ text) = settleGroup p ++ settleFrom [] text := by
  obtain ⟨piece, pieces, h⟩ := List.exists_cons_of_ne_nil (Text.splitOn_ne_nil groupEnd text)
  rw [settleFrom, Text.splitOn_phrase_append groupEnd_ne_nil, Text.foldr_consFirst, List.append_nil,
    settleFrom, h]
  rfl

/-- Text that no group depends on need not wait. -/
theorem settleFrom_detach {p q : List Char}
    (h : ∀ a, settleGroup (p ++ (q ++ a)) = p ++ settleGroup (q ++ a)) (text : List Char) :
    settleFrom (p ++ q) text = p ++ settleFrom q text := by
  obtain ⟨piece, pieces, hpieces⟩ := List.exists_cons_of_ne_nil (Text.splitOn_ne_nil groupEnd text)
  rw [settleFrom, settleFrom, hpieces, Text.foldr_consFirst, Text.foldr_consFirst]
  cases pieces with
  | nil => simp [settlePieces]
  | cons next pieces => simp [settlePieces, h]

/-! ## What a group depends on -/

/-- A test for parentheses. -/
def isParen (c : Char) : Bool := c == '(' || c == ')'

/-- Whether a text holds no parenthesis. -/
def NoParen (text : List Char) : Prop := ∀ c ∈ text, isParen c = false

instance (text : List Char) : Decidable (NoParen text) := by unfold NoParen; infer_instance

/-- Two texts without parentheses have none side by side. -/
theorem NoParen.append {a b : List Char} (ha : NoParen a) (hb : NoParen b) : NoParen (a ++ b) := by
  simpa [NoParen, or_imp, forall_and] using ⟨ha, hb⟩

/-- Whether a text does not end with a part of the word for a negation. -/
def Apart (p : List Char) : Prop :=
  ∀ a, "NOT ".toList.isSuffixOf (p ++ a) = "NOT ".toList.isSuffixOf a

/-- The empty text ends with no part of a negation. -/
theorem apart_nil : Apart [] := fun _ => rfl

/-- A text is apart if its last character is none of the word. -/
theorem apart_concat {c : Char} (h : ∀ b ∈ "NOT ".toList, b ≠ c) (p : List Char) :
    Apart (p ++ [c]) := by
  have h : 'N' ≠ c ∧ 'O' ≠ c ∧ 'T' ≠ c ∧ ' ' ≠ c := by simpa using h
  intro a
  rw [List.isSuffixOf, List.isSuffixOf, List.reverse_append, List.reverse_append]
  match a.reverse with
  | [] | [_] | [_, _] | [_, _, _] | _ :: _ :: _ :: _ :: _ => simp [List.isPrefixOf, h]

/-- A text that ends with a blank is apart if the character in front is not the one of the word. -/
theorem apart_concat_blank {c : Char} (h : 'T' ≠ c) (p : List Char) :
    Apart (p ++ [c, ' ']) := by
  intro a
  rw [List.isSuffixOf, List.isSuffixOf, List.reverse_append, List.reverse_append]
  match a.reverse with
  | [] | [_] | [_, _] | [_, _, _] | _ :: _ :: _ :: _ :: _ => simp [List.isPrefixOf, h]

/-- Whether the end of a text keeps it apart from what follows. -/
def endsApart (text : List Char) : Bool :=
  match text.reverse with
  | [] => false
  | c :: front => if c = ' ' then front.head?.any ('T' != ·) else "NOT ".toList.all (· != c)

/-- A last character that is none of a negation keeps a text apart. -/
theorem endsApart_concat {c : Char} (h : ∀ b ∈ "NOT ".toList, b ≠ c) (text : List Char) :
    endsApart (text ++ [c]) = true := by
  have hblank : c ≠ ' ' := (h ' ' (by decide)).symm
  simpa [endsApart, hblank] using h

/-- A text whose end keeps it apart does so behind any other. -/
theorem apart_append {text : List Char} (h : endsApart text = true) (p : List Char) :
    Apart (p ++ text) := by
  obtain ⟨back, rfl⟩ : ∃ back : List Char, text = back.reverse := ⟨_, text.reverse_reverse.symm⟩
  rw [endsApart, List.reverse_reverse] at h
  match back with
  | [] => cases h
  | c :: front =>
    by_cases hc : c = ' '
    · subst hc
      match front with
      | [] => cases h
      | b :: front => simpa using apart_concat_blank (by simpa using h) (p ++ front.reverse)
    · simp only [hc, if_false] at h
      simpa using apart_concat (by simpa using h) (p ++ front.reverse)

/-- Behind a parenthesis, a group does not depend on text that is apart. -/
theorem settleGroup_append {p a : List Char} (hp : Apart p) (ha : ¬ NoParen a) :
    settleGroup (p ++ a) = p ++ settleGroup a := by
  have hsplit : splitLast isParen a ≠ none := fun h => ha (Text.splitLast_eq_none_iff.mp h)
  obtain ⟨⟨outside, mark, operand⟩, h⟩ := Option.ne_none_iff_exists'.mp hsplit
  have hsole : soleOperand? (p ++ a) = (soleOperand? a).map fun x => (p ++ x.1, x.2) := by
    have hsplit' := Text.splitLast_prepend p h
    unfold isParen at h hsplit'
    simp only [soleOperand?, h, hsplit', hp outside]
    split <;> rfl
  unfold settleGroup
  rw [hsole]
  cases soleOperand? a <;> simp

/-- Without a parenthesis, nothing is settled. -/
theorem settleGroup_of_noParen {a : List Char} (h : NoParen a) : settleGroup a = a ++ groupEnd := by
  have hsplit := Text.splitLast_eq_none_iff.mpr h
  unfold isParen at hsplit
  simp [settleGroup, soleOperand?, hsplit, groupEnd]

/-- Behind the last parenthesis, an operand alone is settled unless it is negated already. -/
theorem settleGroup_paren {operand : List Char} (outside : List Char) {mark : Char}
    (hmark : isParen mark = true) (h : NoParen operand) :
    settleGroup (outside ++ mark :: operand) =
      if mark == '(' && !hasOperator operand && !"NOT ".toList.isSuffixOf outside then
        outside ++ "NOT (".toList ++ operand ++ " IS NULL)".toList
      else outside ++ mark :: operand ++ groupEnd := by
  have hsplit := Text.splitLast_append outside hmark h
  unfold isParen at hsplit
  unfold settleGroup soleOperand?
  rw [hsplit]
  dsimp only
  cases mark == '(' && !hasOperator operand && !"NOT ".toList.isSuffixOf outside with
  | false => simp [groupEnd]
  | true => simp

/-! ## Pieces settled -/

/-- Whether a piece holds neither a parenthesis nor an operator. -/
def Piece.IsInner : Piece → Prop
  | .term _ | .truth _ => True
  | .word text => text ∈ [", ", " IS NULL", " IS NOT NULL"]
  | _ => False

/-- Whether a piece can stand between a parenthesis and an inequality that is all there is in it. -/
def Piece.IsBare : Piece → Prop
  | .term _ | .truth _ => True
  | .word text => text = " IS NULL"
  | _ => False

/-- A bare piece holds neither a parenthesis nor an operator. -/
theorem Piece.IsBare.isInner {p : Piece} (h : p.IsBare) : p.IsInner := by
  cases p with
  | term | truth => trivial
  | word text =>
    obtain rfl : text = " IS NULL" := h
    simp [IsInner]
  | op | nullTest => exact h.elim

/-- What becomes of pieces when groups are settled. The flag says that pieces stand behind an
opening parenthesis without `NOT`, with no operator in between. -/
inductive Settles : Bool → List Piece → List Piece → Prop
  | nil (b : Bool) : Settles b [] []
  | inner {b : Bool} {p : Piece} {ps qs : List Piece} (hp : p.IsInner) (h : Settles b ps qs) :
    Settles b (p :: ps) (p :: qs)
  | op {b : Bool} {o : BinaryOp} {ps qs : List Piece} (h : Settles false ps qs) :
    Settles b (.op o :: ps) (.op o :: qs)
  | test {b : Bool} {o : BinaryOp} {ps qs : List Piece}
    (ho : o = .ne → ps.head? ≠ some (.word ")")) (h : Settles false ps qs) :
    Settles b (.nullTest o :: ps) (.nullTest o :: qs)
  /-- An inequality at the end of a group with something else in it stays. -/
  | ending {ps qs : List Piece} (h : Settles false ps qs) :
    Settles false (.nullTest .ne :: .word ")" :: ps) (.nullTest .ne :: .word ")" :: qs)
  | opened {b : Bool} {ps qs : List Piece} (h : Settles true ps qs) :
    Settles b (.word "(" :: ps) (.word "(" :: qs)
  | members {b : Bool} {ps qs : List Piece} (h : Settles true ps qs) :
    Settles b (.word " IN (" :: ps) (.word " IN (" :: qs)
  | negated {b : Bool} {ps qs : List Piece} (h : Settles false ps qs) :
    Settles b (.word "NOT (" :: ps) (.word "NOT (" :: qs)
  | closed {b : Bool} {ps qs : List Piece} (h : Settles false ps qs) :
    Settles b (.word ")" :: ps) (.word ")" :: qs)
  /-- An inequality that is a group of its own becomes a negation. -/
  | sole {b : Bool} {us ps qs : List Piece} (hus : ∀ u ∈ us, u.IsBare) (h : Settles false ps qs) :
    Settles b (.word "(" :: (us ++ .nullTest .ne :: .word ")" :: ps))
      (.word "NOT (" :: (us ++ .word " IS NULL" :: .word ")" :: qs))

variable {d : Dialect}

/-- The text of a piece without parentheses and operators has no parenthesis. -/
theorem noParen_of_isInner {p : Piece} (h : p.Plain) (hp : p.IsInner) :
    NoParen (pieceText d p) := by
  have hoperand (hkind : (∃ x, p = .term x) ∨ ∃ b, p = .truth b) : NoParen (pieceText d p) := by
    intro c hc
    have hopen : c ≠ '(' := by
      rintro rfl
      exact not_mem_operand h hkind (by simp) (by simp) hc
    have hclose : c ≠ ')' := by
      rintro rfl
      exact not_mem_operand h hkind (by simp) (by simp) hc
    simp [isParen, hopen, hclose]
  cases p with
  | term x => exact hoperand (.inl ⟨x, rfl⟩)
  | truth b => exact hoperand (.inr ⟨b, rfl⟩)
  | word word =>
    have hwords : ∀ word ∈ [", ", " IS NULL", " IS NOT NULL"],
        ∀ c ∈ word.toList, isParen c = false := by decide
    rw [pieceText_word]
    exact hwords word hp
  | op | nullTest => exact hp.elim

/-- The text of a piece without parentheses and operators keeps apart what follows. -/
theorem endsApart_of_isInner {p : Piece} (h : p.Plain) (hp : p.IsInner) :
    endsApart (pieceText d p) = true := by
  cases p with
  | term x =>
    cases x with
    | column name =>
      have hlast := endsApart_concat (c := d.closeQuote) (by cases d <;> decide)
        (d.openQuote :: Text.doubling d.closeQuote name.toList)
      simpa [pieceText, Piece.tokens, Term.token, Dialect.tokenText, Dialect.quoteChars] using hlast
    | param index =>
      obtain ⟨digits, heq, hdigits⟩ := d.placeholder_eq index
      have hne := List.cons_ne_nil d.markStart digits
      have hword : ∀ b ∈ "NOT ".toList, b ≠ (d.markStart :: digits).getLast hne := by
        rintro b hb rfl
        rcases List.mem_cons.mp (List.getLast_mem hne) with hmem | hmem
        · rw [hmem] at hb
          cases d <;> revert hb <;> decide
        · have hall : ∀ b ∈ "NOT ".toList, d.continuesMark b = false := by cases d <;> decide
          exact absurd (hdigits _ hmem) (by simp [hall _ hb])
      have hends := endsApart_concat hword (d.markStart :: digits).dropLast
      rw [List.dropLast_concat_getLast] at hends
      simpa [pieceText, Piece.tokens, Term.token, Dialect.tokenText, heq] using hends
    | number n => exact h.elim
    | null =>
      rw [pieceText_null]
      decide
  | truth b => cases d <;> cases b <;> decide
  | word word =>
    have hwords : ∀ word ∈ [", ", " IS NULL", " IS NOT NULL"],
        endsApart word.toList = true := by decide
    simpa using hwords word hp
  | op | nullTest => exact hp.elim

/-- What may wait behind an opening parenthesis, or nowhere. -/
structure Pending (b : Bool) (p : List Char) : Prop where
  apart : Apart p
  text : if b then ∃ a, p = '(' :: a ∧ NoParen a else p = []

/-- Nothing may wait anywhere. -/
theorem pending_false : Pending false [] := ⟨apart_nil, rfl⟩

/-- An opening parenthesis may wait for its group. -/
theorem pending_opened : Pending true ['('] :=
  ⟨apart_concat (by decide) [], [], rfl, by simp [NoParen]⟩

/-- Text that is apart need not wait if it need not wait in front of text without a parenthesis. -/
theorem settleGroup_detach {p : List Char} (hp : Apart p)
    (h : ∀ a, NoParen a → settleGroup (p ++ a) = p ++ a ++ groupEnd) (a : List Char) :
    settleGroup (p ++ a) = p ++ settleGroup a := by
  by_cases ha : NoParen a
  · rw [h a ha, settleGroup_of_noParen ha, List.append_assoc]
  · exact settleGroup_append hp ha

/-- A group does not depend on text without a parenthesis in front of it. -/
theorem settleGroup_noParen {p : List Char} (hapart : endsApart p = true) (hp : NoParen p)
    (a : List Char) : settleGroup (p ++ a) = p ++ settleGroup a :=
  settleGroup_detach (apart_append hapart []) (fun _ ha => settleGroup_of_noParen (hp.append ha)) a

/-- Behind an operator, a group does not depend on what stands in front of it. -/
theorem settleGroup_operator (p : List Char) {text : List Char} (hparen : NoParen text)
    (hapart : endsApart text = true)
    (hoperator : ∀ a c : List Char, hasOperator (a ++ text ++ c) = true) (a : List Char) :
    settleGroup ((p ++ text) ++ a) = (p ++ text) ++ settleGroup a := by
  refine settleGroup_detach (apart_append hapart p) (fun a ha => ?_) a
  cases hsplit : splitLast isParen p with
  | none =>
    have hp : NoParen p := Text.splitLast_eq_none_iff.mp hsplit
    exact settleGroup_of_noParen ((hp.append hparen).append ha)
  | some parts =>
    obtain ⟨outside, mark, operand⟩ := parts
    obtain ⟨hmark, hfree⟩ := Text.test_of_splitLast hsplit
    have hoperand : NoParen operand := hfree
    have h := settleGroup_paren outside hmark ((hoperand.append hparen).append ha)
    rw [hoperator operand a] at h
    rw [Text.eq_append_of_splitLast hsplit]
    simpa using h

/-- Behind a text with a parenthesis that nothing follows, a group depends on that text alone. -/
theorem settleGroup_restart {p word : List Char} (hp : Apart p) (hword : ¬ NoParen word)
    (a : List Char) : settleGroup (p ++ (word ++ a)) = p ++ settleGroup (word ++ a) :=
  settleGroup_append hp fun h => hword fun c hc => h c (List.mem_append_left a hc)

/-- A group that is negated already stays. -/
theorem settleGroup_negated (p a : List Char) :
    settleGroup ((p ++ "NOT (".toList) ++ a) = (p ++ "NOT (".toList) ++ settleGroup a := by
  refine settleGroup_detach (apart_append (by decide) p) (fun a ha => ?_) a
  have hword : p ++ "NOT (".toList = (p ++ "NOT ".toList) ++ ['('] := by simp
  have hnegated : "NOT ".toList.isSuffixOf (p ++ "NOT ".toList) = true :=
    List.isSuffixOf_iff_suffix.mpr (List.suffix_append p _)
  rw [hword, List.append_assoc, List.singleton_append,
    settleGroup_paren _ (rfl : isParen '(' = true) ha, hnegated, Bool.not_true, Bool.and_false,
    if_neg Bool.false_ne_true]

/-- What stands in front of a closing parenthesis plays no part in a group behind it. -/
theorem settleGroup_closed (p a : List Char) :
    settleGroup ((p ++ [')']) ++ a) = (p ++ [')']) ++ settleGroup a := by
  refine settleGroup_detach (apart_append (by decide) p) (fun a ha => ?_) a
  have h := settleGroup_paren p (rfl : isParen ')' = true) ha
  simpa using h

/-! ## The text of settled pieces -/

/-- A text holds an operator when the text of one occurs in it. -/
theorem hasOperator_iff {text : List Char} :
    hasOperator text = true ↔ ∃ op : BinaryOp, op.text.toList <:+: text := by
  have hne (op : BinaryOp) : op.text.toList ≠ [] := by simp [BinaryOp.text]
  have hall (op : BinaryOp) : op ∈ BinaryOp.all := by cases op <;> decide
  simp [hasOperator, Text.contains_iff_infix (hne _), hall]

/-- No operator stands among the pieces in front of an inequality that is all there is. -/
theorem hasOperator_bare {us : List Piece} (hus : ∀ u ∈ us, u.IsBare) (h : ∀ u ∈ us, u.Plain) :
    hasOperator (text d us) = false := by
  refine List.any_eq_false.mpr fun o _ => ?_
  have hne : o.text.toList ≠ [] := by simp [BinaryOp.text]
  have hcons : ∃ phrase, o.text.toList = ' ' :: phrase := by simp [BinaryOp.text]
  obtain ⟨phrase, hphrase⟩ := hcons
  rw [Bool.not_eq_true, Text.contains_eq_false_iff hne]
  induction us with
  | nil => exact Text.noneBegins_nil _ _
  | cons u us ih =>
    obtain ⟨hu, hus⟩ := List.forall_mem_cons.mp hus
    obtain ⟨hplain, h⟩ := List.forall_mem_cons.mp h
    have hoperand (hkind : (∃ x, u = .term x) ∨ ∃ b, u = .truth b) (rest : List Char) :
        NoneBegins o.text.toList (pieceText d u) rest := by
      rw [hphrase]
      exact Text.noneBegins_of_not_mem (not_mem_operand hplain hkind (by simp) (by simp))
    rw [text_cons, Text.noneBegins_append]
    refine ⟨?_, ih hus h⟩
    cases u with
    | term x => exact hoperand (.inl ⟨x, rfl⟩) _
    | truth b => exact hoperand (.inr ⟨b, rfl⟩) _
    | word word =>
      obtain rfl : word = " IS NULL" := hu
      rw [pieceText_word]
      cases o <;> simp [BinaryOp.text, BinaryOp.word]
    | op | nullTest => exact hu.elim

/-- A text with an operator inside holds one. -/
theorem hasOperator_append (a c : List Char) (o : BinaryOp) (more : List Char) :
    hasOperator (a ++ (o.text.toList ++ more) ++ c) = true :=
  hasOperator_iff.mpr ⟨o, a, more ++ c, by simp only [List.append_assoc]⟩

/-- No group ends in a piece that is no inequality with null. -/
theorem noneBegins_groupEnd {p : Piece} {ps : List Piece} (h : Tidy (p :: ps))
    (hp : p ≠ .nullTest .ne) : NoneBegins groupEnd (pieceText d p) (text d ps) :=
  (noneBegins_pieceText rfl h hp).longer [')']

/-- No group ends in an inequality with null that is not the last of a parenthesis. -/
theorem noneBegins_groupEnd_test {o : BinaryOp} {ps : List Piece} (h : Tidy (.nullTest o :: ps))
    (ho : o = .ne → ps.head? ≠ some (.word ")")) :
    NoneBegins groupEnd (pieceText d (.nullTest o)) (text d ps) := by
  by_cases hne : o = .ne
  · subst hne
    have hclose : ¬ [')'] <+: text d ps := not_prefix_of_head? fun hhead => by
      simpa [ho rfl] using head_text h.of_cons hhead (by simp)
    simpa [groupEnd, differsFromNull, BinaryOp.text, BinaryOp.word, nullMark] using hclose
  · exact noneBegins_groupEnd h fun heq => hne (by simpa using heq)

/-- No group ends in front of an inequality that is all there is. -/
theorem noneBegins_groupEnd_bare {us ps : List Piece} (h : Tidy (us ++ ps))
    (hus : ∀ u ∈ us, u.IsBare) : NoneBegins groupEnd (text d us) (text d ps) := by
  induction us with
  | nil => exact Text.noneBegins_nil _ _
  | cons u us ih =>
    obtain ⟨hu, hus⟩ := List.forall_mem_cons.mp hus
    have htidy : Tidy (u :: (us ++ ps)) := h
    have hfirst := noneBegins_groupEnd (d := d) htidy (by rintro rfl; exact hu)
    rw [text_append] at hfirst
    rw [text_cons, Text.noneBegins_append]
    exact ⟨hfirst, ih htidy.of_cons hus⟩

/-- The text of bare pieces has no parenthesis. -/
theorem noParen_bare {us : List Piece} (hus : ∀ u ∈ us, u.IsBare) (h : ∀ u ∈ us, u.Plain) :
    NoParen (text d us) := by
  induction us with
  | nil => simp [NoParen]
  | cons u us ih =>
    obtain ⟨hu, hus⟩ := List.forall_mem_cons.mp hus
    obtain ⟨hplain, h⟩ := List.forall_mem_cons.mp h
    rw [text_cons]
    exact (noParen_of_isInner hplain hu.isInner).append (ih hus h)

/-- Behind a word with a parenthesis, what waits in front of it need not wait. -/
theorem settleFrom_restart {b : Bool} {p : List Char} (hp : Pending b p) {word : String}
    {ps : List Piece} (h : Tidy (.word word :: ps)) (hword : ¬ NoParen word.toList) :
    settleFrom p (text d (.word word :: ps)) = p ++ settleFrom word.toList (text d ps) := by
  have hnone := noneBegins_groupEnd (d := d) h (by simp)
  rw [pieceText_word] at hnone
  rw [text_cons, pieceText_word, settleFrom_append hnone,
    settleFrom_detach (settleGroup_restart hp.apart hword)]

/-- Text that plays no part in any group behind it can be settled apart. -/
theorem detach_all {p : List Char} (h : ∀ a, settleGroup (p ++ a) = p ++ settleGroup a)
    (text : List Char) : settleFrom p text = p ++ settleFrom [] text := by
  simpa using settleFrom_detach (p := p) (q := []) h text

/-- Text without a parenthesis need not wait where nothing does. -/
theorem settleFrom_noParen {p : List Char} (hapart : endsApart p = true) (hp : NoParen p)
    (text : List Char) : settleFrom p text = p ++ settleFrom [] text :=
  detach_all (settleGroup_noParen hapart hp) text

/-- An operator takes away what waits, also with what stands behind it. -/
theorem settleFrom_operator (p : List Char) (op : BinaryOp) {more : List Char}
    (hparen : NoParen (op.text.toList ++ more))
    (hapart : endsApart (op.text.toList ++ more) = true) (text : List Char) :
    settleFrom (p ++ (op.text.toList ++ more)) text =
      p ++ (op.text.toList ++ more) ++ settleFrom [] text :=
  detach_all (settleGroup_operator p hparen hapart fun a c => hasOperator_append a c op more) text

/-- An operator ends what waits: a group with one inside is left alone. -/
theorem settleFrom_op (p : List Char) (op : BinaryOp) (text : List Char) :
    settleFrom (p ++ op.text.toList) text = p ++ op.text.toList ++ settleFrom [] text := by
  have hparen : NoParen (op.text.toList ++ []) := by cases op <;> decide
  have hapart : endsApart (op.text.toList ++ []) = true := by cases op <;> decide
  simpa using settleFrom_operator p op hparen hapart text

/-- A comparison with null that does not end a group is left alone. -/
theorem settleFrom_nullTest (p : List Char) (op : BinaryOp) (text : List Char) :
    settleFrom (p ++ (op.text.toList ++ nullMark.toList)) text =
      p ++ (op.text.toList ++ nullMark.toList) ++ settleFrom [] text :=
  settleFrom_operator p op (by cases op <;> decide) (by cases op <;> decide) text

/-- A closing parenthesis and a negated one take away what waits. -/
theorem settleFrom_closed (p text : List Char) :
    settleFrom (p ++ ")".toList) text = p ++ ")".toList ++ settleFrom [] text :=
  detach_all (settleGroup_closed p) text

/-- A negated group is left alone. -/
theorem settleFrom_negated (p text : List Char) :
    settleFrom (p ++ "NOT (".toList) text = p ++ "NOT (".toList ++ settleFrom [] text :=
  detach_all (settleGroup_negated p) text

/-- An inequality that ends a parenthesis is the end of a group. -/
theorem text_groupEnd (ps : List Piece) :
    text d (.nullTest .ne :: .word ")" :: ps) = groupEnd ++ text d ps := by
  simp [groupEnd, differsFromNull]

/-- Settling the groups of a text settles its pieces. -/
theorem settleFrom_text {b : Bool} {ps qs : List Piece} (h : Settles b ps qs) (ht : Tidy ps)
    {p : List Char} (hp : Pending b p) : settleFrom p (text d ps) = p ++ text d qs := by
  induction h generalizing p with
  | nil => simpa using settleFrom_nil p
  | @inner b x ps qs hx _ ih =>
    have hplain := (List.forall_mem_cons.mp ht.plain).1
    have hparen := noParen_of_isInner (d := d) hplain hx
    have hends := endsApart_of_isInner (d := d) hplain hx
    have hnone := noneBegins_groupEnd (d := d) ht (by rintro rfl; exact hx)
    rw [text_cons, text_cons, settleFrom_append hnone]
    cases b with
    | true =>
      obtain ⟨q, rfl, hq⟩ : ∃ q, p = '(' :: q ∧ NoParen q := hp.text
      have hpending : Pending true ('(' :: q ++ pieceText d x) :=
        ⟨apart_append hends _, q ++ pieceText d x, rfl, hq.append hparen⟩
      rw [ih ht.of_cons hpending, List.append_assoc]
    | false =>
      obtain rfl : p = [] := hp.text
      rw [List.nil_append, List.nil_append, settleFrom_noParen hends hparen,
        ih ht.of_cons pending_false, List.nil_append]
  | @op b o ps qs _ ih =>
    have hnone := noneBegins_groupEnd (d := d) ht (by simp)
    rw [text_cons, text_cons, settleFrom_append hnone, pieceText_op, settleFrom_op,
      ih ht.of_cons pending_false, List.append_assoc, List.nil_append]
  | @test b o ps qs ho _ ih =>
    have hnone := noneBegins_groupEnd_test (d := d) ht ho
    rw [text_cons, text_cons, settleFrom_append hnone, pieceText_nullTest, settleFrom_nullTest,
      ih ht.of_cons pending_false, List.append_assoc, List.nil_append]
  | @ending ps qs _ ih =>
    obtain rfl : p = [] := hp.text
    rw [text_groupEnd, text_groupEnd, settleFrom_groupEnd,
      settleGroup_of_noParen (by simp [NoParen]), ih ht.of_cons.of_cons pending_false]
    simp
  | @opened b ps qs _ ih =>
    have hword : "(".toList = ['('] := rfl
    rw [settleFrom_restart hp ht (by decide), hword, ih ht.of_cons pending_opened]
    simp
  | @members b ps qs _ ih =>
    have hdetach := settleFrom_detach (p := " IN ".toList) (q := ['('])
      (settleGroup_restart (apart_append (by decide) []) (by decide)) (text d ps)
    have hword : " IN (".toList = " IN ".toList ++ ['('] := by decide
    rw [settleFrom_restart hp ht (by decide), hword, hdetach,
      ih ht.of_cons pending_opened]
    simp
  | @negated b ps qs _ ih =>
    have hnegated := settleFrom_negated [] (text d ps)
    rw [List.nil_append] at hnegated
    rw [settleFrom_restart hp ht (by decide), hnegated, ih ht.of_cons pending_false]
    simp
  | @closed b ps qs _ ih =>
    have hnone := noneBegins_groupEnd (d := d) ht (by simp)
    rw [text_cons, text_cons, settleFrom_append hnone, pieceText_word, settleFrom_closed,
      ih ht.of_cons pending_false, List.append_assoc, List.nil_append]
  | @sole b us ps qs hus _ ih =>
    have hplain : ∀ u ∈ us, u.Plain := fun u hu => ht.plain u (by simp [hu])
    have hnone := noneBegins_groupEnd_bare (d := d) ht.of_cons hus
    have hsettle := settleGroup_paren [] (rfl : isParen '(' = true) (noParen_bare (d := d) hus hplain)
    have hword : "(".toList ++ text d us = [] ++ '(' :: text d us := rfl
    have hfree : "NOT ".toList.isSuffixOf [] = false := rfl
    have hrest : Tidy ps := by
      have htidy : Tidy (us ++ .nullTest .ne :: .word ")" :: ps) := ht.of_cons
      exact htidy.of_append.of_cons.of_cons
    rw [hasOperator_bare hus hplain, hfree] at hsettle
    rw [settleFrom_restart hp ht (by decide), text_append, settleFrom_append hnone,
      text_groupEnd, settleFrom_groupEnd, hword, hsettle, ih hrest pending_false]
    simp

end SqlCompose.Sql
