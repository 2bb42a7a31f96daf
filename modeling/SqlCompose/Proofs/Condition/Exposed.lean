import SqlCompose.Proofs.Condition.Unmarked

/-!
# Exposed names

The pass that settles groups takes a parenthesis within a name for one of the condition. So a name
is exposed if its last parenthesis opens and no operator stands behind it: in front of an inequality
with null that ends a group, the name is rewritten and the inequality becomes a test for absence
(`Sql.settleGroup_exposed`). No group depends on a name that is not exposed
(`Sql.settleGroup_unexposed`).
-/

namespace SqlCompose.Sql

open Text (NoneBegins splitLast doubling)
open NullTest
open Dialect (groupEnd)

variable {d : Dialect}

/-! ## Exposed names -/

/-- What the settling makes of a name in front of an inequality with null that ends a group, if the
name is exposed. -/
def settledName? (name : String) : Option String :=
  (soleOperand? name.toList).map fun (outside, operand) =>
    String.ofList (outside ++ "NOT (".toList ++ operand)

/-- A text without a mark is not changed by doubling it. -/
theorem doubling_of_not_mem {mark : Char} {text : List Char} (h : mark ∉ text) :
    doubling mark text = text := by
  induction text with
  | nil => rfl
  | cons c text ih =>
    rw [List.mem_cons, not_or] at h
    have hcons : doubling mark (c :: text) = c :: doubling mark text := by
      simp [doubling, Ne.symm h.1]
    rw [hcons, ih h.2]

/-- Doubling the closing quotes of a name adds no parenthesis. -/
theorem noParen_doubling {name : List Char} (h : NoParen name) :
    NoParen (doubling d.closeQuote name) := by
  intro c hc
  obtain ⟨b, hb, hmem⟩ := List.mem_flatMap.mp hc
  split at hmem
  · have hquote : c = d.closeQuote := by simpa using hmem
    rw [hquote]
    cases d <;> rfl
  · rw [List.mem_singleton.mp hmem]
    exact h b hb

/-- The quote that closes an identifier is no parenthesis. -/
theorem noParen_closeQuote_cons {text : List Char} (h : NoParen text) :
    NoParen (d.closeQuote :: text) :=
  List.forall_mem_cons.mpr ⟨by cases d <;> rfl, h⟩

/-- The last parenthesis of a name is that of the quoted name, with anything behind it that holds
none. -/
theorem quoteChars_append_eq {outside operand : List Char} {mark : Char}
    (hmark : isParen mark = true) (rest : List Char) :
    d.quoteChars (outside ++ mark :: operand) ++ rest =
      (d.openQuote :: doubling d.closeQuote outside) ++
        mark :: (doubling d.closeQuote operand ++ d.closeQuote :: rest) := by
  have hne : mark ≠ d.closeQuote := by
    rintro rfl
    cases d <;> cases hmark
  have hcons : doubling d.closeQuote (mark :: operand) = mark :: doubling d.closeQuote operand := by
    simp [doubling, hne]
  simp [Dialect.quoteChars, Text.doubling_append, hcons]

/-- What follows a quoted operand adds operators, and takes none away. -/
theorem hasOperator_doubling {operand : List Char} (h : hasOperator operand = true)
    (rest : List Char) : hasOperator (doubling d.closeQuote operand ++ rest) = true := by
  obtain ⟨op, before, after, rfl⟩ := hasOperator_iff.mp h
  have hquote : d.closeQuote ∉ op.text.toList := by cases d <;> cases op <;> decide
  rw [Text.doubling_append, Text.doubling_append, doubling_of_not_mem hquote]
  exact hasOperator_iff.mpr
    ⟨op, doubling d.closeQuote before, doubling d.closeQuote after ++ rest, by simp⟩

/-- A quoted operand with tests for absence behind it has the operators of the operand. Every
operator holds a character that the tests do not. -/
theorem hasOperator_quoted (operand : List Char) {tests : List Char}
    (htests : ∀ c ∈ tests, c ∈ " IS NULL".toList) :
    hasOperator (doubling d.closeQuote operand ++ d.closeQuote :: tests) = hasOperator operand := by
  refine Bool.eq_iff_iff.mpr ⟨fun h => ?_, fun h => hasOperator_doubling h _⟩
  obtain ⟨op, hop⟩ := hasOperator_iff.mp h
  refine hasOperator_iff.mpr ⟨op, ?_⟩
  have hne : op.text.toList ≠ [] := by simp [BinaryOp.text]
  have hstrange : op.text.toList.any (fun c => decide (c ∉ " IS NULL".toList)) = true := by
    cases op <;> decide
  obtain ⟨c, hc, hstrange⟩ := List.any_eq_true.mp hstrange
  have hnot : c ∉ " IS NULL".toList := of_decide_eq_true hstrange
  have hquote : d.closeQuote ∉ op.text.toList := by cases d <;> cases op <;> decide
  have hfirm : d.Firm op.text.toList := by constructor <;> cases d <;> cases op <;> decide
  rcases Text.infix_append_cons hquote hop with hin | hin
  · rw [← d.spell_name, ← Text.contains_iff_infix hne, Dialect.contains_spell hfirm] at hin
    simpa using Glyph.infix_chars hin
  · exact absurd (htests c (hin.subset hc)) hnot

/-- A quoted text ends with a negation when the text does. -/
theorem isSuffixOf_quoted (outside : List Char) :
    "NOT ".toList.isSuffixOf (d.openQuote :: doubling d.closeQuote outside) =
      "NOT ".toList.isSuffixOf outside := by
  have hfinal : ∀ c ∈ "NOT ".toList, d.IsFinal c := by cases d <;> decide
  have hspell : d.openQuote :: doubling d.closeQuote outside =
      d.spell (.opening :: glyphsOf outside) := by
    rw [Dialect.spell_cons, d.spell_name]
    rfl
  rw [Bool.eq_iff_iff, List.isSuffixOf_iff_suffix, List.isSuffixOf_iff_suffix, hspell,
    Dialect.suffix_spell hfinal, List.suffix_cons_iff]
  constructor
  · rintro (h | h)
    · cases h
    · simpa using Glyph.suffix_chars h
  · exact fun h => .inr (h.map _)

/-! ## Quoted names in front of a group's end -/

/-- Where a name is not exposed, no group depends on it. What keeps the name from being exposed
keeps the parenthesis in it from being settled. -/
theorem settleGroup_unexposed {name : List Char} (h : soleOperand? name = none) (a : List Char) :
    settleGroup (d.quoteChars name ++ a) = d.quoteChars name ++ settleGroup a := by
  have hends : endsApart (d.quoteChars name) = true :=
    endsApart_concat (by cases d <;> decide) (d.openQuote :: doubling d.closeQuote name)
  have hapart : Apart (d.quoteChars name) := apart_append hends []
  refine settleGroup_detach hapart (fun a ha => ?_) a
  cases hsplit : splitLast isParen name with
  | none =>
    have hname : NoParen name := Text.splitLast_eq_none_iff.mp hsplit
    have hquoted : NoParen (d.quoteChars name) := by
      refine List.forall_mem_cons.mpr ⟨by cases d <;> rfl, ?_⟩
      exact (noParen_doubling hname).append (noParen_closeQuote_cons (by simp [NoParen]))
    exact settleGroup_of_noParen (hquoted.append ha)
  | some parts =>
    obtain ⟨outside, mark, operand⟩ := parts
    obtain ⟨hmark, hfree⟩ := Text.test_of_splitLast hsplit
    obtain rfl := Text.eq_append_of_splitLast hsplit
    have hcond : (mark == '(' && !hasOperator operand && !"NOT ".toList.isSuffixOf outside) =
        false := by
      unfold soleOperand? at h
      unfold isParen at hsplit
      rw [hsplit] at h
      simpa using h
    have hoperand : NoParen (doubling d.closeQuote operand ++ d.closeQuote :: a) :=
      (noParen_doubling hfree).append (noParen_closeQuote_cons ha)
    have hquoted : (mark == '(' && !hasOperator (doubling d.closeQuote operand ++
        d.closeQuote :: a) && !"NOT ".toList.isSuffixOf
          (d.openQuote :: doubling d.closeQuote outside)) = false := by
      rw [isSuffixOf_quoted]
      cases hop : hasOperator operand with
      | true => simp [hasOperator_doubling hop]
      | false =>
        rw [hop] at hcond
        cases hmark' : mark == '(' <;> simp_all
    rw [quoteChars_append_eq hmark, settleGroup_paren _ hmark hoperand, hquoted,
      if_neg Bool.false_ne_true, ← quoteChars_append_eq hmark]

/-- The group that a text ends in: what stands behind its parenthesis holds neither a parenthesis
nor an operator, and it is not negated. -/
theorem of_soleOperand_eq_some {before outside operand : List Char}
    (h : soleOperand? before = some (outside, operand)) :
    before = outside ++ '(' :: operand ∧ NoParen operand ∧ hasOperator operand = false ∧
      "NOT ".toList.isSuffixOf outside = false := by
  have happend := Dialect.eq_append_of_soleOperand h
  unfold soleOperand? at h
  split at h
  next found =>
    split at h
    next hcond =>
      cases h
      simp only [Bool.and_eq_true, Bool.not_eq_true'] at hcond
      exact ⟨happend, (Text.test_of_splitLast found).2, hcond.1.2, hcond.2⟩
    · cases h
  · cases h

/-- An exposed name is rewritten, and the inequality becomes a test for absence. -/
theorem settleGroup_exposed {name name' : String} (h : settledName? name = some name')
    {tests : List Char} (htests : ∀ c ∈ tests, c ∈ " IS NULL".toList) :
    settleGroup (d.quoteChars name.toList ++ tests) =
      d.quoteChars name'.toList ++ (tests ++ " IS NULL)".toList) := by
  obtain ⟨⟨outside, operand⟩, hsole, rfl⟩ := Option.map_eq_some_iff.mp h
  have hlist : (String.ofList (outside ++ "NOT (".toList ++ operand)).toList =
      outside ++ "NOT (".toList ++ operand := String.toList_ofList
  obtain ⟨hname, hoperand, hoperator, hnegated⟩ := of_soleOperand_eq_some hsole
  have hparen : ∀ c ∈ " IS NULL".toList, isParen c = false := by decide
  have hfree : NoParen (doubling d.closeQuote operand ++ d.closeQuote :: tests) :=
    (noParen_doubling hoperand).append
      (noParen_closeQuote_cons fun c hc => hparen c (htests c hc))
  have hword : d.closeQuote ∉ "NOT (".toList := by cases d <;> decide
  have hquoted : d.quoteChars (outside ++ "NOT (".toList ++ operand) =
      d.openQuote :: (doubling d.closeQuote outside ++ "NOT (".toList ++
        doubling d.closeQuote operand) ++ [d.closeQuote] := by
    rw [Dialect.quoteChars, Text.doubling_append, Text.doubling_append, doubling_of_not_mem hword]
  rw [hname, quoteChars_append_eq rfl, settleGroup_paren _ rfl hfree, hasOperator_quoted _ htests,
    hoperator, isSuffixOf_quoted, hnegated, hlist, hquoted]
  simp

end SqlCompose.Sql
