import Mathlib.Data.List.Infix
import SqlCompose.Proofs.Condition.Finishing
import SqlCompose.Proofs.Dialect.Tame

/-!
# Null tests under any names

A name is unmarked if it does not hold the mark of a null operand. The passes that put null tests
into a text then replace nothing within identifiers, whatever else the names are made of: what they
do to the text of tokens is done token by token (`Sql.replaceAll_chars`, `Sql.nameNulls_chars`).
Names only matter to the pass that settles groups.
-/

namespace SqlCompose.Sql

open Text (replaceAll NoneBegins)
open NullTest

variable {d : Dialect}

/-! ## Unmarked names -/

/-- Whether a name does not hold the mark of a null operand. -/
def IsUnmarked (name : List Char) : Prop := ¬ nullMark.toList <:+: name

instance (name : List Char) : Decidable (IsUnmarked name) := by unfold IsUnmarked; infer_instance

/-- Whether a token is one that a condition under unmarked names can have. -/
def Unmarked : Token → Prop
  | .ident name => IsUnmarked name.toList
  | .word text => text ∈ conditionWords
  | _ => True

/-- The words of unmarked tokens are those of conditions. -/
theorem Unmarked.knownWord {t : Token} (h : Unmarked t) : KnownWord t := by
  cases t with
  | word text => exact h
  | _ => trivial

/-- A phrase with the mark in it begins nowhere in a quoted name that is unmarked. What occurs
between the quotes occurs in the name. -/
theorem noneBegins_quoteChars {phrase name : List Char} (hfirm : d.Firm phrase)
    (hmark : nullMark.toList <:+: phrase) (h : IsUnmarked name) (rest : List Char) :
    NoneBegins phrase (d.quoteChars name) rest := by
  have hspell : d.quoteChars name = d.spell (.opening :: (glyphsOf name ++ [Glyph.closing])) := by
    simpa using (d.spell_quoted name []).symm
  have hcontains : Text.contains phrase (d.quoteChars name) = false := by
    rw [← Bool.not_eq_true, hspell, Dialect.contains_spell hfirm]
    intro hinfix
    refine h (hmark.trans ?_)
    simpa [Glyph.chars] using Glyph.infix_chars hinfix
  have hnone := (Text.contains_eq_false_iff hfirm.ne_nil _).mp hcontains
  refine Text.noneBegins_concat ?_ hnone rest
  intro hclose
  exact (hfirm.firm _ hclose).2.1 rfl

/-- A comparison with a null operand is found in a spelled text where it was written, in every
dialect. -/
theorem firm_nullPhrase (d : Dialect) {o : BinaryOp} (ho : o.isEquality = true) :
    d.Firm (nullPhrase o) := by
  constructor <;> cases o <;> cases ho <;> cases d <;> decide

/-- The mark of null is found in a spelled text where it was written, in every dialect. -/
theorem firm_nullMark (d : Dialect) : d.Firm nullMark.toList := by
  constructor <;> cases d <;> decide

/-- The mark of null is a part of a comparison with a null operand. -/
theorem nullMark_infix_nullPhrase (o : BinaryOp) : nullMark.toList <:+: nullPhrase o :=
  List.infix_append' o.text.toList nullMark.toList []

/-- The text of a parameter or a truth value holds no blank, no parenthesis and no mark. -/
theorem not_mem_tokenText {t : Token} (ht : (∃ index, t = .param index) ∨ ∃ b, t = .truth b)
    {c : Char} (hc : c ∈ [' ', '(', ')', '<']) : c ∉ (d.tokenText t).toList := by
  rcases ht with ⟨index, rfl⟩ | ⟨b, rfl⟩
  · have h := not_mem_operand (d := d) (p := .term (.param index)) trivial (.inl ⟨_, rfl⟩) hc
      (by simp)
    simpa [pieceText, Piece.tokens, Term.token] using h
  · have h := not_mem_operand (d := d) (p := .truth b) trivial (.inr ⟨_, rfl⟩) hc (by simp)
    simpa [pieceText, Piece.tokens] using h

/-! ## Null tests of one kind -/

/-- Tokens do not begin with the part of a null test that stands behind its first blank. -/
theorem not_prefix_chars {o : BinaryOp} (ho : o.isEquality = true) {ts : List Token}
    (h : ∀ t ∈ ts, KnownWord t) : ¬ o.word.toList ++ ' ' :: nullMark.toList <+: d.chars ts := by
  rintro ⟨tail, htail⟩
  cases o with
  | eq =>
    have hhead : (d.chars ts).head? = some '=' := by
      rw [← htail]
      rfl
    simpa using head_chars h hhead (by simp)
  | ne =>
    have hhead : (d.chars ts).head? = some '<' := by
      rw [← htail]
      rfl
    obtain ⟨rest, rfl⟩ : ∃ rest, ts = .null :: rest := by
      simpa [List.head?_eq_some_iff] using head_chars h hhead (by simp)
    simp [BinaryOp.word, nullMark, Dialect.tokenText] at htail
  | _ => cases ho

/-- Only a comparison in front of a null operand begins a null test. -/
theorem noneBegins_token {o : BinaryOp} (ho : o.isEquality = true) {t : Token} {ts : List Token}
    (ht : Unmarked t) (hts : ∀ t ∈ ts, KnownWord t)
    (hnull : t = .op o → ts.head? ≠ some .null) :
    NoneBegins (nullPhrase o) (d.tokenText t).toList (d.chars ts) := by
  have hword := not_prefix_chars (d := d) ho hts
  have hblank {text : List Char} (htext : ' ' ∉ text) :
      NoneBegins (nullPhrase o) text (d.chars ts) := by
    obtain ⟨phrase, hphrase⟩ := nullPhrase_eq_cons o
    rw [hphrase]
    exact Text.noneBegins_of_not_mem htext
  cases t with
  | ident name =>
    rw [Dialect.tokenText, Dialect.toList_quote]
    exact noneBegins_quoteChars (firm_nullPhrase d ho) (nullMark_infix_nullPhrase o) ht _
  | param index => exact hblank (not_mem_tokenText (.inl ⟨index, rfl⟩) (by simp))
  | truth b => exact hblank (not_mem_tokenText (.inr ⟨b, rfl⟩) (by simp))
  | null => exact hblank (by decide : ' ' ∉ nullMark.toList)
  | op o' =>
    have hmark : o' = o → ¬ nullMark.toList <+: d.chars ts := by
      rintro rfl
      rw [nullMark_eq]
      refine not_prefix_of_head? fun hhead => ?_
      have hfirst := head_chars hts hhead (by simp)
      exact hnull rfl (by simpa using hfirst)
    cases o <;> cases ho <;> cases o' <;>
      simp_all [nullPhrase, BinaryOp.text, BinaryOp.word, nullMark, Dialect.tokenText]
  | word text =>
    simp only [Unmarked, conditionWords, List.mem_cons, List.not_mem_nil, or_false] at ht
    rcases ht with rfl | rfl | rfl | rfl | rfl | rfl | rfl | rfl <;> cases o <;> cases ho <;>
      simp_all [nullPhrase, BinaryOp.text, BinaryOp.word, nullMark, Dialect.tokenText]

/-- The null tests of one kind written out. -/
def writeTests (o : BinaryOp) (word : String) : List Token → List Token
  | .op o' :: .null :: ts =>
    (if o' = o then [.word word] else [.op o', .null]) ++ writeTests o word ts
  | t :: ts => t :: writeTests o word ts
  | [] => []

/-- Replacing a comparison with a null operand writes the null tests out. -/
theorem replaceAll_chars {o : BinaryOp} (ho : o.isEquality = true) (word : String)
    {ts : List Token} (h : ∀ t ∈ ts, Unmarked t) :
    replaceAll (nullPhrase o) word.toList (d.chars ts) = d.chars (writeTests o word ts) := by
  have hskip {t : Token} {ts : List Token} (ht : Unmarked t) (hts : ∀ t ∈ ts, Unmarked t)
      (hnull : t = .op o → ts.head? ≠ some .null) :
      replaceAll (nullPhrase o) word.toList (d.chars (t :: ts)) =
        (d.tokenText t).toList ++ replaceAll (nullPhrase o) word.toList (d.chars ts) := by
    rw [Dialect.chars_cons]
    refine Text.replaceAll_append (nullPhrase_ne_nil o) _ ?_
    exact noneBegins_token ho ht (fun t ht => (hts t ht).knownWord) hnull
  fun_induction writeTests o word ts with
  | case1 o' ts ih =>
    obtain ⟨hop, hrest⟩ := List.forall_mem_cons.mp h
    obtain ⟨hnull, hts⟩ := List.forall_mem_cons.mp hrest
    by_cases ho' : o' = o
    · subst ho'
      have htext : d.chars (.op o' :: .null :: ts) = nullPhrase o' ++ d.chars ts := by
        simp [nullPhrase, Dialect.tokenText]
      rw [if_pos rfl, htext, Text.replaceAll_phrase_append (nullPhrase_ne_nil o'), ih hts]
      rfl
    · rw [if_neg ho', hskip hop hrest (by simpa using ho'), hskip hnull hts (by simp), ih hts]
      simp
  | case2 t ts hne ih =>
    obtain ⟨ht, hts⟩ := List.forall_mem_cons.mp h
    rw [hskip ht hts, ih hts, Dialect.chars_cons]
    intro hop hhead
    obtain ⟨rest, rfl⟩ := List.head?_eq_some_iff.mp hhead
    exact hne o rest hop rfl
  | case3 => exact Text.replaceAll_nil (nullPhrase_ne_nil o) _

/-- Writing null tests out adds only their words. -/
theorem mem_writeTests {o : BinaryOp} {word : String} {t : Token} {ts : List Token}
    (h : t ∈ writeTests o word ts) : t ∈ ts ∨ t = .word word := by
  fun_induction writeTests o word ts with
  | case1 o' ts ih =>
    rcases List.mem_append.mp h with h | h
    · split at h
      · exact .inr (List.mem_singleton.mp h)
      · exact .inl (List.mem_append_left ts h)
    · exact (ih h).imp_left fun hts => .tail _ (.tail _ hts)
  | case2 u ts _ ih =>
    rcases List.mem_cons.mp h with rfl | h
    · exact .inl (.head ts)
    · exact (ih h).imp_left (.tail u)
  | case3 => cases h

/-- Writing null tests out keeps tokens unmarked. -/
theorem unmarked_writeTests {o : BinaryOp} {word : String} (hword : word ∈ conditionWords)
    {ts : List Token} (h : ∀ t ∈ ts, Unmarked t) : ∀ t ∈ writeTests o word ts, Unmarked t := by
  intro t ht
  rcases mem_writeTests ht with ht | rfl
  · exact h t ht
  · exact hword

/-! ## Null operands that are left -/

/-- Replacing the mark of an absent value names the null operands that are left. -/
theorem nameNulls_chars {ts : List Token} (h : ∀ t ∈ ts, Unmarked t) :
    replaceAll nullMark.toList nullWord.toList (d.chars ts) = d.chars (ts.map namedToken) := by
  induction ts with
  | nil => exact Text.replaceAll_nil (by decide) _
  | cons t ts ih =>
    obtain ⟨ht, hts⟩ := List.forall_mem_cons.mp h
    have hrest := ih hts
    rw [Dialect.chars_cons, List.map_cons, Dialect.chars_cons, ← hrest]
    have hkeep (hmark : '<' ∉ (d.tokenText t).toList) :
        replaceAll nullMark.toList nullWord.toList ((d.tokenText t).toList ++ d.chars ts) =
          (d.tokenText t).toList ++ replaceAll nullMark.toList nullWord.toList (d.chars ts) :=
      replaceAll_null_of_not_mem hmark _
    cases t with
    | ident name =>
      show replaceAll _ _ ((d.quote name).toList ++ _) = (d.quote name).toList ++ _
      rw [Dialect.toList_quote]
      exact Text.replaceAll_append (firm_nullMark d).ne_nil _
        (noneBegins_quoteChars (firm_nullMark d) List.infix_rfl ht _)
    | param index => exact hkeep (not_mem_tokenText (.inl ⟨index, rfl⟩) (by simp))
    | truth b => exact hkeep (not_mem_tokenText (.inr ⟨b, rfl⟩) (by simp))
    | null => exact replaceAll_null_append _
    | op o => exact replaceAll_null_op o _
    | word text =>
      have hwords : ∀ word ∈ conditionWords, '<' ∉ word.toList := by decide
      exact hkeep (hwords text ht)

end SqlCompose.Sql
