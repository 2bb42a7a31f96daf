import Mathlib.Tactic.ByContra
import Mathlib.Tactic.SplitIfs
import SqlCompose.Toml.Quoted

/-!
# Strings of a TOML document read back

`Spells` says which texts stand for a string: any of the four styles, and in each of them any of the
texts that the style has for a character. Every such text is read as its string, wherever it stands
(`readString?_spells`), and one of them is the text that is written (`spells_quote`).
-/

namespace SqlCompose.Toml

/-! ## Texts for strings -/

/-- A text for a character between quotation marks. -/
inductive BasicPiece : List Char → Char → Prop where
  /-- The character itself. -/
  | plain {c : Char} : isBasic c = true → BasicPiece [c] c
  /-- A backslash with a character. -/
  | named {c x : Char} : unescape? c = some x → BasicPiece ['\\', c] x
  /-- A number of four digits. -/
  | code {a b c d x : Char} : ofCode? [a, b, c, d] = some x →
    BasicPiece ['\\', 'u', a, b, c, d] x
  /-- A number of eight digits. -/
  | longCode {a b c d e f g h x : Char} : ofCode? [a, b, c, d, e, f, g, h] = some x →
    BasicPiece ['\\', 'U', a, b, c, d, e, f, g, h] x

/-- A text for a character between apostrophes: the character itself. -/
inductive LiteralPiece : List Char → Char → Prop where
  /-- The character itself. -/
  | plain {c : Char} : isLiteral c = true → LiteralPiece [c] c

/-- A text for a character of a string over several lines. -/
inductive LongPiece (piece : List Char → Char → Prop) : List Char → Char → Prop where
  /-- A text that a string on one line has for it. -/
  | short {text : List Char} {c : Char} : piece text c → LongPiece piece text c
  /-- A line end. -/
  | lineEnd {text : List Char} : text = ['\n'] ∨ text = ['\r', '\n'] → LongPiece piece text '\n'

/-- A text for the characters of a string, behind so many marks of those that stand around it: marks
in a row up to a limit, and texts for other characters. -/
inductive Body (mark : Char) (limit : Nat) (piece : List Char → Char → Prop) :
    Nat → List Char → List Char → Prop where
  /-- No characters. -/
  | nil {marks : Nat} : Body mark limit piece marks [] []
  /-- One more mark. -/
  | mark {marks : Nat} {text chars : List Char} : marks < limit →
    Body mark limit piece (marks + 1) text chars →
    Body mark limit piece marks (mark :: text) (mark :: chars)
  /-- Another character. -/
  | piece {marks : Nat} {part text chars : List Char} {c : Char} : piece part c →
    Body mark limit piece 0 text chars → Body mark limit piece marks (part ++ text) (c :: chars)

/-- Whether a text may stand between the opening marks of a long string and its first character: a
line end, or nothing if the text for the string does not start with a line end. -/
def IsLead (lead text : List Char) : Prop :=
  lead = ['\n'] ∨ lead = ['\r', '\n'] ∨
    lead = [] ∧ text.head? ≠ some '\n' ∧ text.head? ≠ some '\r'

/-- Whether a text stands for a string. -/
inductive Spells : List Char → List Char → Prop where
  /-- A basic string. -/
  | basic {text chars : List Char} : Body '"' 0 BasicPiece 0 text chars →
    Spells ('"' :: (text ++ ['"'])) chars
  /-- A literal string. -/
  | literal {text chars : List Char} : Body apostrophe 0 LiteralPiece 0 text chars →
    Spells (apostrophe :: (text ++ [apostrophe])) chars
  /-- A basic string over several lines. -/
  | longBasic {lead text chars : List Char} : IsLead lead text →
    Body '"' 2 (LongPiece BasicPiece) 0 text chars →
    Spells (List.replicate 3 '"' ++ (lead ++ (text ++ List.replicate 3 '"'))) chars
  /-- A literal string over several lines. -/
  | longLiteral {lead text chars : List Char} : IsLead lead text →
    Body apostrophe 2 (LongPiece LiteralPiece) 0 text chars →
    Spells (List.replicate 3 apostrophe ++ (lead ++ (text ++ List.replicate 3 apostrophe))) chars

/-! ## Where texts for characters start -/

/-- Whether a text starts with a character that is no mark and starts no line end. -/
def StartsInside (mark : Char) (text : List Char) : Prop :=
  ∃ c tail, text = c :: tail ∧ c ≠ mark ∧ c ≠ '\n' ∧ c ≠ '\r'

/-- A plain character ends no line. -/
theorem ne_of_isPlain {c : Char} (h : isPlain c = true) : c ≠ '\n' ∧ c ≠ '\r' := by
  constructor
  · rintro rfl
    exact absurd h (by decide)
  · rintro rfl
    exact absurd h (by decide)

/-- Between quotation marks a plain character stands for itself, unless it is a mark or a
backslash. -/
theorem isBasic_iff {c : Char} :
    isBasic c = true ↔ isPlain c = true ∧ c ≠ '"' ∧ c ≠ '\\' := by
  simp [isBasic, and_assoc]

/-- Between apostrophes a plain character stands for itself, unless it is an apostrophe. -/
theorem isLiteral_iff {c : Char} :
    isLiteral c = true ↔ isPlain c = true ∧ c ≠ apostrophe := by
  simp [isLiteral]

/-- A text for a character between quotation marks does not look like the end of the string or of
the line. -/
theorem BasicPiece.startsInside {text : List Char} {x : Char} (h : BasicPiece text x) :
    StartsInside '"' text := by
  cases h with
  | plain hc =>
    obtain ⟨hplain, hmark, -⟩ := isBasic_iff.mp hc
    exact ⟨_, _, rfl, hmark, ne_of_isPlain hplain⟩
  | named => exact ⟨_, _, rfl, by decide⟩
  | code => exact ⟨_, _, rfl, by decide⟩
  | longCode => exact ⟨_, _, rfl, by decide⟩

/-- A text for a character between apostrophes does not look like the end of the string or of the
line. -/
theorem LiteralPiece.startsInside {text : List Char} {x : Char} (h : LiteralPiece text x) :
    StartsInside apostrophe text := by
  cases h with
  | plain hc =>
    obtain ⟨hplain, hmark⟩ := isLiteral_iff.mp hc
    exact ⟨_, _, rfl, hmark, ne_of_isPlain hplain⟩

/-- A text for a character of a long string does not start with a mark. -/
theorem LongPiece.head_ne {mark : Char} {piece : List Char → Char → Prop}
    (hpiece : ∀ {text x}, piece text x → StartsInside mark text)
    (hmark : mark ≠ '\n' ∧ mark ≠ '\r') {text : List Char} {x : Char}
    (h : LongPiece piece text x) : ∃ c tail, text = c :: tail ∧ c ≠ mark := by
  cases h with
  | short h =>
    obtain ⟨c, tail, htext, hc, -⟩ := hpiece h
    exact ⟨c, tail, htext, hc⟩
  | lineEnd htext =>
    rcases htext with rfl | rfl
    · exact ⟨_, _, rfl, hmark.1.symm⟩
    · exact ⟨_, _, rfl, hmark.2.symm⟩

/-- A line ends only with a line feed, or with a carriage return in front of one. -/
theorem lineEnd?_cons {c : Char} (hn : c ≠ '\n') (hr : c ≠ '\r') (text : List Char) :
    lineEnd? (c :: text) = none := by
  unfold lineEnd?
  split
  · rename_i heq
    exact absurd (List.cons.inj heq).1 hn
  · rename_i heq
    exact absurd (List.cons.inj heq).1 hr
  · rfl

/-- A letter or a mark that stands for a character behind a backslash. -/
theorem mem_of_unescape? {c x : Char} (h : unescape? c = some x) :
    c ∈ ['"', '\\', 'b', 't', 'n', 'f', 'r'] := by
  by_contra hc
  simp only [List.mem_cons, List.not_mem_nil, or_false, not_or] at hc
  simp [unescape?, hc] at h

/-- An escape that stands for one character by a letter is none of the two that go on with digits.
-/
theorem ne_of_unescape? {c x : Char} (h : unescape? c = some x) : c ≠ 'u' ∧ c ≠ 'U' := by
  constructor
  · rintro rfl
    exact absurd (mem_of_unescape? h) (by decide)
  · rintro rfl
    exact absurd (mem_of_unescape? h) (by decide)

/-! ## Strings on one line -/

/-- The reader of strings between quotation marks takes a text for a character as that character. -/
theorem readBasic?_piece {part : List Char} {c : Char} (h : BasicPiece part c)
    (rest : List Char) :
    readBasic? (part ++ rest) = (readBasic? rest).map fun (chars, rest) => (c :: chars, rest) := by
  cases h with
  | plain hc =>
    obtain ⟨-, hmark, hslash⟩ := isBasic_iff.mp hc
    rw [List.singleton_append, readBasic?]
    · simp only [hc]
      cases readBasic? rest <;> rfl
    · exact hmark
    · exact fun _ _ _ _ _ heq => absurd heq hslash
    · exact fun _ _ _ _ _ _ _ _ _ heq => absurd heq hslash
    · exact fun _ _ heq => absurd heq hslash
  | named hc =>
    obtain ⟨hu, hU⟩ := ne_of_unescape? hc
    rw [List.cons_append, List.singleton_append, readBasic?]
    · rw [hc]
      cases readBasic? rest <;> rfl
    · exact fun _ _ _ _ _ heq => absurd heq hu
    · exact fun _ _ _ _ _ _ _ _ _ heq => absurd heq hU
  | code hc =>
    simp only [List.cons_append, List.nil_append, readBasic?, hc]
    cases readBasic? rest <;> rfl
  | longCode hc =>
    simp only [List.cons_append, List.nil_append, readBasic?, hc]
    cases readBasic? rest <;> rfl

/-- The reader of strings between quotation marks takes texts for characters as those characters, up
to the mark behind them. -/
theorem readBasic?_body {text chars : List Char} {marks : Nat}
    (h : Body '"' 0 BasicPiece marks text chars) (rest : List Char) :
    readBasic? (text ++ '"' :: rest) = some (chars, rest) := by
  induction h with
  | nil => rw [List.nil_append, readBasic?]
  | mark hlimit => exact absurd hlimit (Nat.not_lt_zero _)
  | piece hpiece _ ih => rw [List.append_assoc, readBasic?_piece hpiece, ih, Option.map_some]

/-- Between apostrophes every character stands for itself. -/
theorem eq_of_body_literal {text chars : List Char} {marks : Nat}
    (h : Body apostrophe 0 LiteralPiece marks text chars) :
    text = chars ∧ ∀ c ∈ chars, isLiteral c = true := by
  induction h with
  | nil => simp
  | mark hlimit => exact absurd hlimit (Nat.not_lt_zero _)
  | piece hpiece _ ih =>
    cases hpiece with
    | plain hc =>
      obtain ⟨rfl, hchars⟩ := ih
      exact ⟨rfl, List.forall_mem_cons.mpr ⟨hc, hchars⟩⟩

/-- The reader of strings between apostrophes takes texts for characters as those characters, up to
the mark behind them. -/
theorem readLiteral?_body {text chars : List Char} {marks : Nat}
    (h : Body apostrophe 0 LiteralPiece marks text chars) (rest : List Char) :
    readLiteral? (text ++ apostrophe :: rest) = some (chars, rest) := by
  obtain ⟨rfl, hchars⟩ := eq_of_body_literal h
  have hend : isLiteral apostrophe = false := by decide
  rw [readLiteral?, List.dropWhile_append_of_pos hchars, List.takeWhile_append_of_pos hchars,
    List.dropWhile_cons_of_neg (by simp [hend]), List.takeWhile_cons_of_neg (by simp [hend])]
  simp

/-! ## Strings over several lines -/

/-- What a reader of long strings does after each part of a text. -/
structure ReadsLong (mark : Char) (piece : List Char → Char → Prop)
    (read : List Char → Option (List Char × List Char)) : Prop where
  /-- Three marks close the string, unless there are more. -/
  close (rest : List Char) : read (mark :: mark :: mark :: rest) = some (closingMarks mark rest)
  /-- A mark is read as itself, unless two more come next. -/
  mark_cons {rest : List Char} : ¬[mark, mark] <+: rest →
    read (mark :: rest) = (read rest).map fun (chars, rest) => (mark :: chars, rest)
  /-- A text for a character is read as the character. -/
  piece_append {part : List Char} {c : Char} : piece part c → ∀ rest,
    read (part ++ rest) = (read rest).map fun (chars, rest) => (c :: chars, rest)
  /-- A text for a character does not start with a mark. -/
  head_ne {part : List Char} {c : Char} : piece part c → ∃ a tail, part = a :: tail ∧ a ≠ mark

section Closing

variable {mark : Char} {rest : List Char} (hrest : rest.head? ≠ some mark)

include hrest

/-- No mark belongs to the string where none stands behind its end. -/
theorem closingMarks_of_head? : closingMarks mark rest = ([], rest) := by
  match rest with
  | [] => rfl
  | [a] => simp_all [closingMarks]
  | a :: b :: rest => simp_all [closingMarks]

/-- One mark behind the end of a long string belongs to the string. -/
theorem closingMarks_one : closingMarks mark (mark :: rest) = ([mark], rest) := by
  match rest with
  | [] => simp [closingMarks]
  | b :: rest => simp_all [closingMarks]

end Closing

/-- Two marks behind the end of a long string belong to the string. -/
theorem closingMarks_two (mark : Char) (rest : List Char) :
    closingMarks mark (mark :: mark :: rest) = ([mark, mark], rest) := by
  simp [closingMarks]

/-- A string is read up to its closing marks. Marks of its own in front of these are told apart by
their number. A part that does not start with a mark cannot complete the closing marks. Behind a
mark of its own the string ends, or another mark comes, or a part; three marks in a row are the
closing ones, so up to two more of them count for the string. -/
theorem ReadsLong.body {mark : Char} {piece : List Char → Char → Prop}
    {read : List Char → Option (List Char × List Char)} (h : ReadsLong mark piece read)
    {marks : Nat} {text chars rest : List Char} (hbody : Body mark 2 piece marks text chars)
    (hrest : rest.head? ≠ some mark) :
    read (text ++ mark :: mark :: mark :: rest) = some (chars, rest) := by
  have hinside : ∀ {part : List Char} {c : Char} (tail : List Char), piece part c →
      ¬[mark, mark] <+: part ++ tail ∧ ¬[mark, mark] <+: mark :: (part ++ tail) := by
    intro part c tail hpiece
    obtain ⟨a, _, rfl, ha⟩ := h.head_ne hpiece
    simp [ha.symm]
  induction hbody with
  | nil => rw [List.nil_append, h.close, closingMarks_of_head? hrest]
  | piece hpiece _ ih => rw [List.append_assoc, h.piece_append hpiece, ih, Option.map_some]
  | mark hlimit hbody ih =>
    cases hbody with
    | nil => exact (h.close _).trans (congrArg some (closingMarks_one hrest))
    | piece hpiece hbody =>
      rw [List.append_assoc] at ih
      rw [List.cons_append, List.append_assoc, h.mark_cons (hinside _ hpiece).1, ih,
        Option.map_some]
    | mark hnext hbody =>
      cases hbody with
      | nil => exact (h.close _).trans (congrArg some (closingMarks_two mark rest))
      | piece hpiece hbody =>
        rw [List.cons_append, List.append_assoc] at ih
        rw [List.cons_append, List.cons_append, List.append_assoc,
          h.mark_cons (hinside _ hpiece).2, ih, Option.map_some]
      | mark hlast => omega

/-- A backslash in front of a letter is an escape and does not join two lines. -/
theorem isBlankToLineEnd_of_unescape? {c x : Char} (h : unescape? c = some x)
    (text : List Char) : isBlankToLineEnd (c :: text) = false := by
  have hmem := mem_of_unescape? h
  simp only [List.mem_cons, List.not_mem_nil, or_false] at hmem
  rcases hmem with rfl | rfl | rfl | rfl | rfl | rfl | rfl <;> rfl

/-- A character of a long basic string that stands for itself. -/
theorem readLongBasic?_cons {c : Char} (h : isBasic c = true ∨ c = '"' ∨ c = '\n')
    {rest : List Char} (hrest : c = '"' → ¬['"', '"'] <+: rest) :
    readLongBasic? false (c :: rest) =
      (readLongBasic? false rest).map fun (chars, rest) => (c :: chars, rest) := by
  have hr : c ≠ '\r' := by
    rintro rfl
    exact absurd h (by decide)
  have hslash : c ≠ '\\' := by
    rintro rfl
    exact absurd h (by decide)
  have hself : (isBasic c || c == '"' || c == '\n') = true := by
    simpa only [Bool.or_eq_true, beq_iff_eq, or_assoc] using h
  rw [readLongBasic?]
  · simp only [hself, Bool.false_and, Bool.false_eq_true, if_false]
    cases readLongBasic? false rest <;> rfl
  · rintro tail rfl rfl
    exact hrest rfl (by simp)
  · exact fun _ heq => absurd heq hr
  · exact fun _ _ _ _ _ heq => absurd heq hslash
  · exact fun _ _ _ _ _ _ _ _ _ heq => absurd heq hslash
  · exact fun _ _ heq => absurd heq hslash

/-- The reader of long strings between quotation marks takes a text for a character as that
character. -/
theorem readLongBasic?_piece {part : List Char} {c : Char} (h : BasicPiece part c)
    (rest : List Char) : readLongBasic? false (part ++ rest) =
      (readLongBasic? false rest).map fun (chars, rest) => (c :: chars, rest) := by
  cases h with
  | plain hc =>
    exact readLongBasic?_cons (Or.inl hc) fun heq => absurd heq (isBasic_iff.mp hc).2.1
  | named hc =>
    obtain ⟨hu, hU⟩ := ne_of_unescape? hc
    rw [List.cons_append, List.singleton_append, readLongBasic?]
    · rw [isBlankToLineEnd_of_unescape? hc, hc]
      cases readLongBasic? false rest <;> rfl
    · exact fun _ _ _ _ _ heq => absurd heq hu
    · exact fun _ _ _ _ _ _ _ _ _ heq => absurd heq hU
  | code hc =>
    simp only [List.cons_append, List.nil_append, readLongBasic?, hc]
    cases readLongBasic? false rest <;> rfl
  | longCode hc =>
    simp only [List.cons_append, List.nil_append, readLongBasic?, hc]
    cases readLongBasic? false rest <;> rfl

/-- What the reader of long strings between quotation marks does at the end, at a mark and at a text
for a character. -/
theorem readsLong_basic : ReadsLong '"' (LongPiece BasicPiece) (readLongBasic? false) where
  close rest := by rw [readLongBasic?]
  mark_cons hrest := readLongBasic?_cons (Or.inr (Or.inl rfl)) fun _ => hrest
  piece_append hpiece rest := by
    cases hpiece with
    | short hpiece => exact readLongBasic?_piece hpiece rest
    | lineEnd htext =>
      rcases htext with rfl | rfl
      · exact readLongBasic?_cons (Or.inr (Or.inr rfl)) fun heq => absurd heq (by decide)
      · simp only [List.cons_append, List.nil_append, readLongBasic?]
        cases readLongBasic? false rest <;> rfl
  head_ne hpiece := hpiece.head_ne BasicPiece.startsInside (by decide)

/-- A character of a long literal string stands for itself. -/
theorem readLongLiteral?_cons {c : Char} (h : isPlain c = true ∨ c = '\n') {rest : List Char}
    (hrest : c = apostrophe → ¬[apostrophe, apostrophe] <+: rest) :
    readLongLiteral? (c :: rest) =
      (readLongLiteral? rest).map fun (chars, rest) => (c :: chars, rest) := by
  have hr : c ≠ '\r' := by
    rintro rfl
    exact absurd h (by decide)
  have hself : (isPlain c || c == '\n') = true := by
    simpa only [Bool.or_eq_true, beq_iff_eq] using h
  match rest with
  | [] => simp [readLongLiteral?]
  | [a] => simp [readLongLiteral?, hr]
  | a :: b :: rest =>
    rw [readLongLiteral?]
    · rw [if_neg]
      · simp only [hself]
        cases readLongLiteral? (a :: b :: rest) <;> rfl
      · rintro ⟨hc, rfl, rfl⟩
        exact hrest hc (by simp)
    · exact fun heq _ => absurd heq hr

/-- What the reader of long strings between apostrophes does at the end, at a mark and at a text for
a character. -/
theorem readsLong_literal :
    ReadsLong apostrophe (LongPiece LiteralPiece) readLongLiteral? where
  close rest := by
    rw [readLongLiteral?]
    · simp
    · exact fun heq _ => absurd heq (by decide)
  mark_cons hrest := readLongLiteral?_cons (Or.inl (by decide)) fun _ => hrest
  piece_append {part c} hpiece rest := by
    cases hpiece with
    | short hpiece =>
      cases hpiece with
      | plain hc =>
        obtain ⟨hplain, hmark⟩ := isLiteral_iff.mp hc
        exact readLongLiteral?_cons (Or.inl hplain) fun heq => absurd heq hmark
    | lineEnd htext =>
      rcases htext with rfl | rfl
      · exact readLongLiteral?_cons (Or.inr rfl) fun heq => absurd heq (by decide)
      · simp only [List.cons_append, List.nil_append, readLongLiteral?]
        cases readLongLiteral? rest <;> rfl
  head_ne hpiece := hpiece.head_ne LiteralPiece.startsInside (by decide)

/-! ## Strings in any style -/

/-- The line end behind the opening marks is dropped, and nothing else. -/
theorem dropLineEnd_lead {lead text : List Char} (h : IsLead lead text) {mark : Char}
    (hmark : mark ≠ '\n' ∧ mark ≠ '\r') (rest : List Char) :
    dropLineEnd (lead ++ (text ++ mark :: rest)) = text ++ mark :: rest := by
  rcases h with rfl | rfl | ⟨rfl, hn, hr⟩
  · rfl
  · rfl
  · rw [List.nil_append, dropLineEnd]
    cases text with
    | nil => rw [List.nil_append, lineEnd?_cons hmark.1 hmark.2, Option.getD_none]
    | cons c text =>
      rw [List.cons_append, lineEnd?_cons (by simpa using hn) (by simpa using hr),
        Option.getD_none]

/-- Three marks in a row open a long string. -/
theorem splitMarks?_replicate (mark : Char) (text : List Char) :
    splitMarks? mark (List.replicate 3 mark ++ text) = some text := by
  simp [splitMarks?]

/-- A string on one line does not start with three marks. -/
theorem splitMarks?_body {mark : Char} {piece : List Char → Char → Prop}
    (hpiece : ∀ {text x}, piece text x → StartsInside mark text) {text chars rest : List Char}
    (h : Body mark 0 piece 0 text chars) (hrest : rest.head? ≠ some mark) :
    splitMarks? mark (mark :: (text ++ mark :: rest)) = none := by
  rw [splitMarks?, if_neg]
  cases h with
  | nil =>
    cases rest with
    | nil => simp
    | cons c rest =>
      have hc : mark ≠ c := by
        rintro rfl
        exact hrest rfl
      simp [hc]
  | mark hlimit => exact absurd hlimit (Nat.not_lt_zero _)
  | piece h =>
    obtain ⟨c, tail, rfl, hc, -⟩ := hpiece h
    simp [hc.symm]

/-- A text that stands for a string starts with a mark and is read as the string. -/
theorem readString?_spells {text chars : List Char} (h : Spells text chars) :
    ∃ mark tail, text = mark :: tail ∧ (mark = '"' ∨ mark = apostrophe) ∧
      ∀ rest : List Char, rest.head? ≠ some mark →
        readString? mark (text ++ rest) = some (String.ofList chars, rest) := by
  cases h with
  | basic hbody =>
    refine ⟨_, _, rfl, Or.inl rfl, fun rest hrest => ?_⟩
    rw [List.cons_append, List.append_assoc, List.singleton_append, readString?,
      splitMarks?_body BasicPiece.startsInside hbody hrest]
    simp only [List.drop_succ_cons, List.drop_zero, readBasic?_body hbody]
    rfl
  | literal hbody =>
    refine ⟨_, _, rfl, Or.inr rfl, fun rest hrest => ?_⟩
    rw [List.cons_append, List.append_assoc, List.singleton_append, readString?,
      splitMarks?_body LiteralPiece.startsInside hbody hrest]
    simp only [List.drop_succ_cons, List.drop_zero, readLiteral?_body hbody]
    rfl
  | longBasic hlead hbody =>
    refine ⟨_, _, rfl, Or.inl rfl, fun rest hrest => ?_⟩
    have hread := readsLong_basic.body hbody hrest
    rw [List.append_assoc, List.append_assoc, List.append_assoc, readString?,
      splitMarks?_replicate]
    simp only [if_true, List.replicate_succ, List.replicate_zero, List.cons_append,
      List.nil_append, dropLineEnd_lead hlead (by decide : '"' ≠ '\n' ∧ '"' ≠ '\r'), hread]
    rfl
  | longLiteral hlead hbody =>
    refine ⟨_, _, rfl, Or.inr rfl, fun rest hrest => ?_⟩
    have hread := readsLong_literal.body hbody hrest
    have hmark : apostrophe ≠ '"' := by decide
    rw [List.append_assoc, List.append_assoc, List.append_assoc, readString?,
      splitMarks?_replicate]
    simp only [hmark, if_false, List.replicate_succ, List.replicate_zero, List.cons_append,
      List.nil_append,
      dropLineEnd_lead hlead (by decide : apostrophe ≠ '\n' ∧ apostrophe ≠ '\r'), hread]
    rfl

/-! ## Strings that are written -/

/-- The digits of an ASCII character are read as its number. -/
theorem ofCode?_ascii : ∀ n < 128,
    (Text.hexPadded 4 n).map Char.toUpper =
      ['0', '0', (n / 16).digitChar.toUpper, (n % 16).digitChar.toUpper] ∧
    ofCode? ['0', '0', (n / 16).digitChar.toUpper, (n % 16).digitChar.toUpper] =
      some (Char.ofNat n) := by decide +kernel

/-- Only characters of the first 128 are not plain. -/
theorem toNat_lt_of_isPlain_eq_false {c : Char} (h : isPlain c = false) : c.toNat < 128 := by
  have hcase : c < ' ' ∨ c = '\x7f' := by
    by_contra hcase
    rw [not_or] at hcase
    simp [isPlain, hcase] at h
  rcases hcase with hlow | rfl
  · have hlow : c.toNat < 32 := hlow
    omega
  · decide

/-- The escape of a character stands for it. -/
theorem basicPiece_escape (c : Char) : BasicPiece (escape c) c := by
  unfold escape
  split_ifs with hself hb ht hn hf hr hplain
  · exact .named (if_pos hself)
  · exact .named (congrArg some hb.symm)
  · exact .named (congrArg some ht.symm)
  · exact .named (congrArg some hn.symm)
  · exact .named (congrArg some hf.symm)
  · exact .named (congrArg some hr.symm)
  · rw [not_or] at hself
    exact .plain (isBasic_iff.mpr ⟨hplain, hself⟩)
  · obtain ⟨hdigits, hcode⟩ :=
      ofCode?_ascii c.toNat (toNat_lt_of_isPlain_eq_false (Bool.eq_false_iff.mpr hplain))
    rw [Text.asciiUpper, String.toList_map, String.toList_ofList, hdigits]
    rw [Char.ofNat_toNat] at hcode
    exact .code hcode

/-- Characters escaped one by one stand for the string between quotation marks. -/
theorem body_escape (s : List Char) : Body '"' 0 BasicPiece 0 (s.flatMap escape) s := by
  induction s with
  | nil => exact .nil
  | cons c s ih => exact .piece (basicPiece_escape c) ih

/-- Characters escaped one by one, but for line ends and up to two marks in a row, stand for the
string between long quotation marks. -/
theorem body_escapeLong {marks : Nat} (s : List Char) :
    Body '"' 2 (LongPiece BasicPiece) marks (escapeLong marks s) s := by
  induction s generalizing marks with
  | nil => exact .nil
  | cons c s ih =>
    rw [escapeLong]
    split_ifs with hmark hline
    · obtain ⟨rfl, hmarks⟩ := hmark
      exact .mark hmarks ih
    · subst hline
      exact .piece (.lineEnd (Or.inl rfl)) ih
    · exact .piece (.short (basicPiece_escape c)) ih

/-- A string of literal characters stands for itself between apostrophes. -/
theorem body_literal {s : List Char} (h : ∀ c ∈ s, isLiteral c = true) :
    Body apostrophe 0 LiteralPiece 0 s s := by
  induction s with
  | nil => exact .nil
  | cons c s ih =>
    rw [List.forall_mem_cons] at h
    exact .piece (.plain h.1) (ih h.2)

/-- A string of plain characters and line ends with at most two apostrophes in a row stands for
itself between long apostrophes. -/
theorem body_longLiteral {marks : Nat} {s : List Char}
    (hchars : ∀ c ∈ s, isPlain c = true ∨ c = '\n') (hsparse : isSparse apostrophe marks s = true) :
    Body apostrophe 2 (LongPiece LiteralPiece) marks s s := by
  induction s generalizing marks with
  | nil => exact .nil
  | cons c s ih =>
    rw [List.forall_mem_cons] at hchars
    rw [isSparse] at hsparse
    split_ifs at hsparse with hmark
    · subst hmark
      rw [Bool.and_eq_true, decide_eq_true_iff] at hsparse
      exact .mark hsparse.1 (ih hchars.2 hsparse.2)
    · have hpiece : LongPiece LiteralPiece [c] c := by
        rcases hchars.1 with hplain | rfl
        · exact .short (.plain (isLiteral_iff.mpr ⟨hplain, hmark⟩))
        · exact .lineEnd (Or.inl rfl)
      exact .piece hpiece (ih hchars.2 hsparse)

/-- The line end that the writer puts behind the opening marks protects one that the string starts
with. -/
theorem isLead_leadingLineEnd {mark : Char} {piece : List Char → Char → Prop} {marks : Nat}
    (hpiece : ∀ {text x}, piece text x → StartsInside mark text)
    (hmark : mark ≠ '\n' ∧ mark ≠ '\r') {text chars : List Char}
    (h : Body mark 2 (LongPiece piece) marks text chars) :
    IsLead (leadingLineEnd chars) text := by
  unfold leadingLineEnd
  split_ifs with hline
  · exact Or.inl rfl
  · refine Or.inr (Or.inr ⟨rfl, ?_⟩)
    cases h with
    | nil => simp
    | mark => simpa using hmark
    | piece h =>
      cases h with
      | short h =>
        obtain ⟨c, tail, rfl, -, hc⟩ := hpiece h
        simpa using hc
      | lineEnd => simp at hline

/-- What is written stands for the string. -/
theorem spells_quote (s : String) : Spells (quote s).toList s.toList := by
  rw [quote, String.toList_ofList]
  generalize s.toList = s
  have hlongBasic : Spells (Style.longBasic.write s) s := by
    have hbody : Body '"' 2 (LongPiece BasicPiece) 0 (escapeLong 0 s) s := body_escapeLong s
    have hlead := isLead_leadingLineEnd BasicPiece.startsInside (by decide) hbody
    simpa only [Style.write, List.append_assoc] using Spells.longBasic hlead hbody
  unfold style
  split_ifs with hbasic hliteral hlong hlongLiteral hline
  · exact .basic (body_escape s)
  · exact .literal (body_literal (List.all_eq_true.mp hliteral))
  · exact hlongBasic
  · rw [Bool.and_eq_true, List.all_eq_true] at hlongLiteral
    obtain ⟨hchars, hsparse⟩ := hlongLiteral
    have hbody := body_longLiteral (fun c hc => by simpa using hchars c hc) hsparse
    have hlead := isLead_leadingLineEnd LiteralPiece.startsInside (by decide) hbody
    simpa only [Style.write, List.append_assoc] using Spells.longLiteral hlead hbody
  · exact hlongBasic
  · exact .basic (body_escape s)

example : quote "C:\\ca.pem" = "'C:\\ca.pem'" := by decide +kernel

end SqlCompose.Toml
