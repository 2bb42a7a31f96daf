import SqlCompose.Proofs.Condition.Identifier

/-!
# Names with a mark in them

Every mark of a null operand in the text of a condition is replaced, also one in a name. The load
of a text is a number of characters of which each mark brings in one more than its null test: a
pass over the text takes at least as much out of the load as it takes marks out (`Sql.Spends`). So
a text with more marks than null operands ends with a smaller load than its null tests account for,
and a name with a mark in it is never kept (`Sql.not_keepsNames_of_marked`).
-/

namespace SqlCompose.Sql

open Text (replaceAll NoneBegins)
open NullTest
open Dialect (groupEnd)

variable {d : Dialect}

/-! ## Marks -/

/-- The number of marks in a text. -/
def marks : List Char → Nat
  | [] => 0
  | c :: text => (if nullMark.toList <+: c :: text then 1 else 0) + marks text

/-- A first character at which no mark begins does not count. -/
theorem marks_cons_of_none {c : Char} {text : List Char}
    (h : ¬ nullMark.toList <+: c :: text) : marks (c :: text) = marks text := by
  rw [marks, if_neg h, Nat.zero_add]

/-- Marks do not get lost where texts are joined. -/
theorem marks_append_le (a b : List Char) : marks a + marks b ≤ marks (a ++ b) := by
  induction a with
  | nil => simp [marks]
  | cons c a ih =>
    by_cases hmark : nullMark.toList <+: c :: a
    · have hjoined : nullMark.toList <+: c :: (a ++ b) :=
        hmark.trans (List.prefix_append (c :: a) b)
      rw [List.cons_append, marks, marks, if_pos hmark, if_pos hjoined]
      omega
    · rw [List.cons_append, marks_cons_of_none hmark, marks]
      omega

/-- No mark spans a character that it does not hold. -/
theorem marks_append_cons {c : Char} (hc : c ∉ nullMark.toList) (a b : List Char) :
    marks (a ++ c :: b) ≤ marks a + marks b := by
  induction a with
  | nil =>
    have hmark : ¬ nullMark.toList <+: c :: b := by
      intro h
      rw [nullMark_eq, List.cons_prefix_cons] at h
      exact hc (by rw [nullMark_eq, h.1]; simp)
    rw [List.nil_append, marks_cons_of_none hmark]
    omega
  | cons x a ih =>
    rw [List.cons_append, marks, marks]
    by_cases hmark : nullMark.toList <+: x :: (a ++ c :: b)
    · have hfront : nullMark.toList <+: x :: a :=
        Text.prefix_of_prefix_append_cons (a := x :: a) hc hmark
      rw [if_pos hmark, if_pos hfront]
      omega
    · rw [if_neg hmark]
      omega

/-- No two marks overlap. -/
theorem marks_mark_append (text : List Char) :
    marks (nullMark.toList ++ text) = 1 + marks text := by
  simp [nullMark, marks]

/-- A comparison with a null operand has one mark. -/
theorem marks_nullPhrase_append {o : BinaryOp} (ho : o.isEquality = true) (text : List Char) :
    marks (nullPhrase o ++ text) = 1 + marks text := by
  cases o <;> cases ho <;> simp [nullPhrase, BinaryOp.text, BinaryOp.word, nullMark, marks]

/-! ## Load -/

/-- The number of characters `<` and `T` in a text. A comparison with a null operand has one more of
them than the null test that is written for it: ` <> <NULL>` has two and ` IS NOT NULL` one. -/
def load (text : List Char) : Nat := text.countP fun c => c == '<' || c == 'T'

@[simp] theorem load_nil : load [] = 0 := rfl

/-- The load of two texts side by side is that of both. -/
@[simp] theorem load_append (a b : List Char) : load (a ++ b) = load a + load b :=
  List.countP_append

/-- The load of a text is that of its first character and of the rest. -/
theorem load_cons (c : Char) (text : List Char) : load (c :: text) = load [c] + load text :=
  load_append [c] text

/-- Whether a text comes from another one with at least as much load taken out as marks. -/
def Spends (a b : List Char) : Prop := load b + marks a ≤ load a + marks b

namespace Spends

variable {a b a' b' c : List Char}

/-- A text comes from itself without any load taken out. -/
theorem refl (a : List Char) : Spends a a := Nat.le_refl _

/-- What is taken out in two passes adds up. -/
theorem trans (hab : Spends a b) (hbc : Spends b c) : Spends a c := by
  unfold Spends at *
  omega

/-- Parts of a text that no mark spans. -/
theorem append (ha : Spends a a') (hb : Spends b b') (h : marks (a ++ b) ≤ marks a + marks b) :
    Spends (a ++ b) (a' ++ b') := by
  have hjoined := marks_append_le a' b'
  unfold Spends at *
  rw [load_append, load_append]
  omega

end Spends

/-! ## Passes over a text -/

/-- Writing out the null tests of one kind takes a load out for each of their marks. -/
theorem spends_replaceAll {o : BinaryOp} (ho : o.isEquality = true) (word : List Char)
    (hword : load word + 1 ≤ load (nullPhrase o)) (text : List Char) :
    Spends text (replaceAll (nullPhrase o) word text) := by
  have hne := nullPhrase_ne_nil o
  induction text using Text.cut_induction hne with
  | nil =>
    rw [Text.replaceAll_nil hne]
    exact .refl []
  | occurrence text ih =>
    have hmarks := marks_nullPhrase_append ho text
    have hjoined := marks_append_le word (replaceAll (nullPhrase o) word text)
    rw [Text.replaceAll_phrase_append hne]
    unfold Spends at *
    rw [load_append, load_append]
    omega
  | character c text hc ih =>
    rw [Text.replaceAll_cons hne _ hc]
    unfold Spends at *
    rw [load_cons, load_cons c text]
    by_cases hmark : nullMark.toList <+: c :: text
    · -- a mark holds no blank, so it stays where it begins
      have hstays : nullMark.toList <+: c :: replaceAll (nullPhrase o) word text := by
        rw [nullMark_eq, List.cons_prefix_cons] at hmark ⊢
        obtain ⟨hfirst, rest, rfl⟩ := hmark
        obtain ⟨phrase, hphrase⟩ := nullPhrase_eq_cons o
        have hnone : NoneBegins (nullPhrase o) "NULL>".toList rest := by
          rw [hphrase]
          exact Text.noneBegins_of_not_mem (by decide)
        rw [Text.replaceAll_append hne _ hnone]
        exact ⟨hfirst, List.prefix_append _ _⟩
      rw [marks, marks, if_pos hmark, if_pos hstays]
      omega
    · rw [marks_cons_of_none hmark, marks]
      omega

/-- Settling a group takes a load out for its mark. -/
theorem spends_settleGroup (before : List Char) :
    Spends (before ++ groupEnd) (settleGroup before) := by
  unfold settleGroup
  split
  next outside operand hsole =>
    obtain rfl := (of_soleOperand_eq_some hsole).1
    have hloads : load groupEnd = 2 ∧ load "NOT (".toList = 1 ∧ load " IS NULL)".toList = 0 ∧
        load ['('] = 0 := by decide
    obtain ⟨hend, hnot, hnull, hopen⟩ := hloads
    have hmarks : marks (outside ++ '(' :: operand ++ groupEnd) ≤
        marks outside + (marks operand + 1) := by
      rw [List.append_assoc, List.cons_append]
      refine (marks_append_cons (by decide) outside _).trans ?_
      exact Nat.add_le_add_left (marks_append_cons (by decide) operand "<> <NULL>)".toList) _
    have hsettled : marks outside + marks operand ≤
        marks (outside ++ "NOT (".toList ++ operand ++ " IS NULL)".toList) := by
      have hnegated := marks_append_le outside "NOT (".toList
      have hoperand := marks_append_le (outside ++ "NOT (".toList) operand
      have htest := marks_append_le (outside ++ "NOT (".toList ++ operand) " IS NULL)".toList
      omega
    unfold Spends
    rw [load_append, load_append, load_append, load_append, load_append, load_cons, hend, hnot,
      hnull, hopen]
    omega
  · rw [List.append_assoc]
    exact .refl _

/-- Settling all groups takes a load out for each of their marks. -/
theorem spends_settleGroups (text : List Char) : Spends text (settleGroups text) := by
  have hfrom : ∀ p, Spends (p ++ text) (settleFrom p text) := by
    induction text using Text.cut_induction groupEnd_ne_nil with
    | nil =>
      intro p
      rw [settleFrom_nil, List.append_nil]
      exact .refl p
    | occurrence text ih =>
      intro p
      rw [settleFrom_groupEnd, ← List.append_assoc]
      refine (spends_settleGroup p).append (ih []) ?_
      have hclose := marks_append_cons (c := ')') (by decide) (p ++ differsFromNull) text
      have hfront := marks_append_le (p ++ differsFromNull) [')']
      simp only [groupEnd, List.append_assoc, List.singleton_append] at *
      omega
    | character c text hc ih =>
      intro p
      have hnone : NoneBegins groupEnd [c] text := ⟨hc, trivial⟩
      rw [← List.singleton_append, settleFrom_append hnone, ← List.append_assoc]
      exact ih (p ++ [c])
  exact hfrom []

/-- Naming the null operands that are left takes a load out for each mark. -/
theorem load_nameNulls (text : List Char) :
    load (replaceAll nullMark.toList nullWord.toList text) + marks text ≤ load text := by
  have hne : nullMark.toList ≠ [] := by decide
  have hload : load nullWord.toList = 0 ∧ load nullMark.toList = 1 := by decide
  induction text using Text.cut_induction hne with
  | nil => simp [Text.replaceAll_nil hne, marks]
  | occurrence text ih =>
    rw [Text.replaceAll_phrase_append hne, marks_mark_append, load_append, load_append, hload.1,
      hload.2]
    omega
  | character c text hc ih =>
    rw [Text.replaceAll_cons hne _ hc, marks_cons_of_none hc, load_cons, load_cons c text]
    omega

/-- Finishing a condition takes a load out for each mark. -/
theorem load_finishChars (text : List Char) :
    load (finishChars text) + marks text ≤ load text := by
  have heq := spends_replaceAll (o := .eq) rfl " IS NULL".toList (by decide) text
  have hsettle := heq.trans (spends_settleGroups _)
  have hne := hsettle.trans
    (spends_replaceAll (o := .ne) rfl " IS NOT NULL".toList (by decide) _)
  have hnames := load_nameNulls (replaceAll (nullPhrase .ne) " IS NOT NULL".toList
    (settleGroups (replaceAll (nullPhrase .eq) " IS NULL".toList text)))
  unfold Spends at hne
  show load (replaceAll nullMark.toList nullWord.toList (replaceAll (nullPhrase .ne) _
    (settleGroups (replaceAll (nullPhrase .eq) _ text)))) + _ ≤ _
  omega

/-! ## Tokens -/

/-- The null operands of tokens account for as many marks. -/
theorem count_le_marks (ts : List Token) : ts.count .null ≤ marks (d.chars ts) := by
  induction ts with
  | nil => exact Nat.le_refl 0
  | cons t ts ih =>
    have hjoined := marks_append_le (d.tokenText t).toList (d.chars ts)
    rw [Dialect.chars_cons, List.count_cons]
    cases t with
    | null =>
      have hmark : marks (d.tokenText .null).toList = 1 := by
        show marks nullMark.toList = 1
        decide
      simp only [beq_self_eq_true, if_true]
      omega
    | ident | param | op | truth | word =>
      simp only [beq_iff_eq, reduceCtorEq, if_false]
      omega

/-- Writing null tests out takes out as much load as there are null operands less. -/
theorem load_writeTests {o : BinaryOp} (word : String)
    (hword : load (nullPhrase o) = load word.toList + 1) (ts : List Token) :
    load (d.chars (writeTests o word ts)) + ts.count .null =
      load (d.chars ts) + (writeTests o word ts).count .null := by
  fun_induction writeTests o word ts with
  | case1 o' ts ih =>
    have hphrase : load (d.chars (.op o' :: .null :: ts)) =
        load (nullPhrase o') + load (d.chars ts) := by
      simp [nullPhrase, Dialect.tokenText, Nat.add_assoc]
    by_cases ho : o' = o
    · subst ho
      rw [if_pos rfl, hphrase, hword]
      simp [Dialect.tokenText]
      omega
    · rw [if_neg ho]
      simp [Dialect.tokenText]
      omega
  | case2 t ts _ ih =>
    rw [Dialect.chars_cons, Dialect.chars_cons, load_append, load_append, List.count_cons,
      List.count_cons]
    omega
  | case3 => rfl

/-- Writing null as the literal takes out as much load as there are null operands. -/
theorem load_namedTokens (ts : List Token) :
    load (d.chars (ts.map namedToken)) + ts.count .null = load (d.chars ts) := by
  have hload : load nullWord.toList = 0 ∧ load nullMark.toList = 1 := by decide
  induction ts with
  | nil => rfl
  | cons t ts ih =>
    rw [List.map_cons, Dialect.chars_cons, Dialect.chars_cons, load_append, load_append,
      List.count_cons]
    cases t with
    | null =>
      show load nullWord.toList + _ + _ = load nullMark.toList + _
      rw [hload.1, hload.2]
      simp only [beq_self_eq_true, if_true]
      omega
    | ident | param | op | truth | word =>
      simp only [namedToken, beq_iff_eq, reduceCtorEq, if_false]
      omega

/-- The null tests of tokens account for the load of their null operands. -/
theorem load_plainNullTests (ts : List Token) :
    load (d.chars (plainNullTests ts)) + ts.count .null = load (d.chars ts) := by
  have hequal := load_writeTests (d := d) (o := .eq) " IS NULL" (by decide) ts
  have hdiffer := load_writeTests (d := d) (o := .ne) " IS NOT NULL" (by decide)
    (writeTests .eq " IS NULL" ts)
  have hnamed := load_namedTokens (d := d)
    (writeTests .ne " IS NOT NULL" (writeTests .eq " IS NULL" ts))
  unfold plainNullTests
  omega

/-- A quoted name has the marks of the name. -/
theorem marks_quoteChars {name : List Char} (h : ¬ IsUnmarked name) :
    1 ≤ marks (d.quoteChars name) := by
  obtain ⟨before, after, rfl⟩ := Classical.not_not.mp h
  have hquote : d.closeQuote ∉ nullMark.toList := by cases d <;> decide
  have hchars : d.quoteChars (before ++ nullMark.toList ++ after) =
      (d.openQuote :: Text.doubling d.closeQuote before) ++
        (nullMark.toList ++ (Text.doubling d.closeQuote after ++ [d.closeQuote])) := by
    rw [Dialect.quoteChars, Text.doubling_append, Text.doubling_append, doubling_of_not_mem hquote]
    simp
  rw [hchars]
  refine le_trans ?_ (marks_append_le _ _)
  rw [marks_mark_append]
  omega

/-- A name with a mark in it is not kept. -/
theorem not_keepsNames_of_marked {ts : List Token} {name : String} (hname : name ∈ identNames ts)
    (hmark : ¬ IsUnmarked name.toList) : ¬ d.KeepsNames (NullTest.finish (d.write ts)) ts := by
  intro hkeeps
  have hchars : finishChars (d.chars ts) = d.chars (plainNullTests ts) := by
    have htests := congrArg String.toList hkeeps.tests
    rwa [NullTest.finish, String.toList_ofList, Dialect.toList_write,
      Dialect.toList_write] at htests
  have hmarks : ts.count .null + 1 ≤ marks (d.chars ts) := by
    obtain ⟨t, ht, hident⟩ := List.mem_filterMap.mp hname
    cases t with
    | ident name' =>
      cases hident
      obtain ⟨a, b, rfl⟩ := List.append_of_mem ht
      have hquoted := marks_quoteChars (d := d) hmark
      have hbefore := count_le_marks (d := d) a
      have hafter := count_le_marks (d := d) b
      have hjoined := marks_append_le (d.chars a) (d.chars (.ident name :: b))
      have hbehind := marks_append_le (d.quoteChars name.toList) (d.chars b)
      rw [Dialect.chars_cons, Dialect.tokenText, Dialect.toList_quote] at hjoined
      rw [Dialect.chars_append, Dialect.chars_cons, Dialect.tokenText, Dialect.toList_quote,
        List.count_append, List.count_cons]
      simp only [beq_iff_eq, reduceCtorEq, if_false]
      omega
    | param | op | null | truth | word => cases hident
  have hfinish := load_finishChars (d.chars ts)
  have hplain := load_plainNullTests (d := d) ts
  rw [hchars] at hfinish
  omega

end SqlCompose.Sql
