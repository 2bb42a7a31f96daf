import SqlCompose.Proofs.Dialect.Glyph
import SqlCompose.Proofs.Dialect.Rewording

/-!
# Null tests in text that no dialect has spelled

Putting the null tests into a condition looks for phrases and parentheses, which dialects find in
the same places, also within identifiers. So what becomes of a text can be said before a dialect
spells it (`Glyph.exists_finishChars`). A text is tame if its identifiers are closed and nothing
runs together with an identifier, a parameter or a truth value; the null tests keep it tame, and
they keep its parameters.
-/

namespace SqlCompose

namespace Glyph

/-! ## Tame texts -/

/-- Whether a character may stand outside of identifiers. -/
def isWordChar (c : Char) : Bool := c ∈ " (),=<>ADILNORSTU".toList

/-- Whether a character may stand behind an identifier, a parameter or a truth value. -/
def isBreakChar (c : Char) : Bool := c ∈ [' ', ')', ',']

/-- What may stand outside of identifiers neither begins nor ends an identifier or a placeholder. -/
theorem unquoted_of_isWordChar (d : Dialect) {c : Char} (h : isWordChar c = true) :
    c ≠ d.openQuote ∧ c ≠ d.closeQuote ∧ c ≠ d.markStart := by
  have hwords : ∀ c ∈ " (),=<>ADILNORSTU".toList,
      c ≠ d.openQuote ∧ c ≠ d.closeQuote ∧ c ≠ d.markStart := by
    cases d <;> decide
  exact hwords c (by simpa [isWordChar] using h)

/-- Where in a text a glyph stands. -/
inductive Place where
  /-- Outside of identifiers. -/
  | outside
  /-- Within an identifier. -/
  | inside
  /-- Behind an identifier, a parameter or a truth value. -/
  | behind
deriving DecidableEq, Repr

/-- The place behind a glyph, if the glyph may stand in this place. -/
def Place.next : Place → Glyph → Option Place
  | .outside, .char c => if isWordChar c then some .outside else none
  | .outside, .opening => some .inside
  | .outside, .closing => none
  | .outside, .param _ | .outside, .truth _ => some .behind
  | .inside, .char _ => some .inside
  | .inside, .closing => some .behind
  | .inside, .opening | .inside, .param _ | .inside, .truth _ => none
  | .behind, .char c => if isBreakChar c then some .outside else none
  | .behind, .opening | .behind, .closing | .behind, .param _ | .behind, .truth _ => none

/-- Outside of identifiers only the characters of words may stand, and they stay outside. -/
theorem Place.next_outside_char {c : Char} {place : Place} :
    Place.outside.next (.char c) = some place ↔ isWordChar c = true ∧ .outside = place := by
  simp [Place.next]

/-- Behind an operand only the characters that end it may stand, and they lead outside. -/
theorem Place.next_behind_char {c : Char} {place : Place} :
    Place.behind.next (.char c) = some place ↔ isBreakChar c = true ∧ .outside = place := by
  simp [Place.next]

/-- Whether the glyphs of a text may stand where they do, from a place on, and every identifier is
closed. -/
def Tame : Place → List Glyph → Prop
  | place, [] => place ≠ .inside
  | place, x :: text => ∃ place', place.next x = some place' ∧ Tame place' text

/-- What may stand behind an operand may stand outside. -/
theorem isWordChar_of_isBreakChar {c : Char} (h : isBreakChar c = true) : isWordChar c = true := by
  simp only [isBreakChar, List.mem_cons, List.not_mem_nil, or_false, decide_eq_true_eq] at h
  rcases h with rfl | rfl | rfl <;> decide

/-- Inside an identifier every phrase is tame. -/
theorem tame_inside_glyphsOf (phrase : List Char) (text : List Glyph) :
    Tame .inside (glyphsOf phrase ++ text) ↔ Tame .inside text := by
  induction phrase with
  | nil => rfl
  | cons c phrase ih => simpa [Tame, Place.next] using ih

/-- Outside of identifiers a phrase is tame when its characters may stand there. -/
theorem tame_outside_glyphsOf (phrase : List Char) (text : List Glyph) :
    Tame .outside (glyphsOf phrase ++ text) ↔
      (∀ c ∈ phrase, isWordChar c = true) ∧ Tame .outside text := by
  induction phrase with
  | nil => simp
  | cons c phrase ih =>
    simp only [glyphsOf, List.map_cons, List.cons_append, Tame, Place.next, List.forall_mem_cons]
    by_cases hc : isWordChar c = true
    · simpa [hc] using ih
    · simp [hc]

/-- Behind an operand a phrase is tame when it begins with a character that ends the operand. -/
theorem tame_behind_glyphsOf {phrase : List Char} (hne : phrase ≠ []) (text : List Glyph) :
    Tame .behind (glyphsOf phrase ++ text) ↔
      phrase.head?.any isBreakChar = true ∧ Tame .outside (glyphsOf phrase ++ text) := by
  obtain ⟨c, rest, rfl⟩ := List.exists_cons_of_ne_nil hne
  by_cases hc : isBreakChar c = true
  · simp [Tame, Place.next, hc, isWordChar_of_isBreakChar hc]
  · simp [Tame, Place.next, hc]

/-! ## What keeps a text tame -/

/-- The parameters of a text. -/
def params (text : List Glyph) : List Nat :=
  text.filterMap fun
    | .param index => some index
    | _ => none

/-- The parameters of two texts side by side are those of each, in order. -/
@[simp] theorem params_append (a b : List Glyph) : params (a ++ b) = params a ++ params b := by
  simp [params]

/-- Characters have no parameters. -/
@[simp] theorem params_glyphsOf (text : List Char) : params (glyphsOf text) = [] := by
  simp [params]

/-- Whether a part of a text can be exchanged for another one, whatever stands around it. -/
structure Keeps (a b : List Glyph) : Prop where
  tame : ∀ rest rest', (∀ place, Tame place rest → Tame place rest') →
    ∀ place, Tame place (a ++ rest) → Tame place (b ++ rest')
  params : params b = params a

namespace Keeps

variable {a b c a' b' : List Glyph}

/-- Every part can be exchanged for itself. -/
theorem refl (a : List Glyph) : Keeps a a where
  tame rest rest' h place ha := by
    induction a generalizing place with
    | nil => exact h place ha
    | cons x a ih =>
      obtain ⟨place', hnext, ha⟩ := ha
      exact ⟨place', hnext, ih place' ha⟩
  params := rfl

/-- Two exchanges one after the other are an exchange. -/
theorem trans (h : Keeps a b) (h' : Keeps b c) : Keeps a c where
  tame rest rest' hrest place ha :=
    h'.tame rest' rest' (fun _ => id) place (h.tame rest rest' hrest place ha)
  params := h'.params.trans h.params

/-- Exchanges side by side are an exchange of the whole. -/
theorem append (h : Keeps a b) (h' : Keeps a' b') : Keeps (a ++ a') (b ++ b') where
  tame rest rest' hrest place ha := by
    rw [List.append_assoc] at ha ⊢
    exact h.tame _ _ (h'.tame rest rest' hrest) place ha
  params := by rw [params_append, params_append, h.params, h'.params]

/-- A phrase is exchanged for one that may stand outside of identifiers, and behind them if the
first phrase may. -/
theorem phrase {p r : List Char} (hp : p ≠ []) (hr : r ≠ [])
    (hwords : ∀ c ∈ r, isWordChar c = true)
    (hbreak : p.head?.any isBreakChar = true → r.head?.any isBreakChar = true) :
    Keeps (glyphsOf p) (glyphsOf r) where
  tame rest rest' h place ha := by
    have houtside (hp : Tame .outside (glyphsOf p ++ rest)) :
        Tame .outside (glyphsOf r ++ rest') :=
      (tame_outside_glyphsOf r rest').mpr ⟨hwords, h _ ((tame_outside_glyphsOf p rest).mp hp).2⟩
    cases place with
    | outside => exact houtside ha
    | inside =>
      rw [tame_inside_glyphsOf] at ha ⊢
      exact h _ ha
    | behind =>
      rw [tame_behind_glyphsOf hp] at ha
      exact (tame_behind_glyphsOf hr rest').mpr ⟨hbreak ha.1, houtside ha.2⟩
  params := by rw [params_glyphsOf, params_glyphsOf]

/-- Exchanging what stands between pieces. -/
theorem intercalate {p r : List Glyph} (h : Keeps p r) (pieces : List (List Glyph)) :
    Keeps (List.intercalate p pieces) (List.intercalate r pieces) := by
  induction pieces with
  | nil => exact refl []
  | cons piece pieces ih =>
    cases pieces with
    | nil => simpa using refl piece
    | cons next pieces =>
      rw [List.intercalate_cons_cons, List.intercalate_cons_cons, List.append_assoc,
        List.append_assoc]
      exact (refl piece).append (h.append ih)

end Keeps

/-! ## Null tests -/

open Text (replaceAll splitOn splitLast)
open NullTest
open Dialect (groupEnd)

/-- Pieces with a separator are spelled piece by piece. -/
theorem spell_intercalate (d : Dialect) (separator : List Glyph) (pieces : List (List Glyph)) :
    d.spell (List.intercalate separator pieces) =
      List.intercalate (d.spell separator) (pieces.map d.spell) := by
  induction pieces with
  | nil => rfl
  | cons piece pieces ih =>
    cases pieces with
    | nil => simp
    | cons next pieces => simp [List.intercalate_cons_cons, ih]

/-- Whether a phrase is spelled alike by all dialects. -/
def IsCommon (phrase : List Char) : Prop := ∀ d : Dialect, ∀ c ∈ phrase, c ≠ d.closeQuote

/-- Replacing a phrase comes to the same in all dialects. -/
theorem exists_replaceAll {p r : List Char} (hp : ∀ d : Dialect, d.Firm p) (hr : IsCommon r)
    (hkeeps : Keeps (glyphsOf p) (glyphsOf r)) (text : List Glyph) :
    ∃ text', Keeps text text' ∧ ∀ d : Dialect, replaceAll p r (d.spell text) = d.spell text' := by
  obtain ⟨pieces, -, rfl, hsplit⟩ := exists_splitOn hp text
  refine ⟨List.intercalate (glyphsOf r) pieces, hkeeps.intercalate pieces, fun d => ?_⟩
  rw [replaceAll, hsplit d, spell_intercalate, Dialect.spell_glyphsOf (hr d)]

/-- Whether a text holds an operator does not depend on the dialect that spells it. -/
theorem hasOperator_spell (d d' : Dialect) (text : List Glyph) :
    hasOperator (d.spell text) = hasOperator (d'.spell text) := by
  have hfirm (d : Dialect) (op : BinaryOp) : d.Firm op.text.toList := by
    constructor <;> cases d <;> cases op <;> decide
  unfold hasOperator
  congr 1
  funext op
  rw [Bool.eq_iff_iff, Dialect.contains_spell (hfirm d op), Dialect.contains_spell (hfirm d' op)]

/-- Whether a text ends with a negation does not depend on the dialect that spells it. -/
theorem isSuffixOf_spell (d d' : Dialect) (text : List Glyph) :
    "NOT ".toList.isSuffixOf (d.spell text) = "NOT ".toList.isSuffixOf (d'.spell text) := by
  have hfinal (d : Dialect) : ∀ c ∈ "NOT ".toList, d.IsFinal c := by cases d <;> decide
  rw [Bool.eq_iff_iff, List.isSuffixOf_iff_suffix, List.isSuffixOf_iff_suffix,
    Dialect.suffix_spell (hfinal d), Dialect.suffix_spell (hfinal d')]

/-- A group with an inequality alone is found in the same place by all dialects. What decides
whether the group counts is the same in every dialect, so one may decide. -/
theorem exists_soleOperand (before : List Glyph) :
    ∃ found : Option (List Glyph × List Glyph),
      (∀ outside operand, found = some (outside, operand) →
        before = outside ++ .char '(' :: operand) ∧
      ∀ d : Dialect, soleOperand? (d.spell before) =
        found.map fun (outside, operand) => (d.spell outside, d.spell operand) := by
  have hparen (d : Dialect) (c : Char) (hc : (c == '(' || c == ')') = true) :
      d.IsFirm c ∧ d.IsLeading c := by
    simp only [Bool.or_eq_true, beq_iff_eq] at hc
    rcases hc with rfl | rfl <;> cases d <;> decide
  obtain ⟨found, htext, hfound⟩ := exists_splitLast hparen before
  cases found with
  | none => exact ⟨none, by simp, fun d => by simp [soleOperand?, hfound d]⟩
  | some parts =>
    obtain ⟨outside, mark, operand⟩ := parts
    have hcond (d : Dialect) :
        (mark == '(' && !hasOperator (d.spell operand) &&
          !("NOT ".toList.isSuffixOf (d.spell outside))) =
        (mark == '(' && !hasOperator (Dialect.mySql.spell operand) &&
          !("NOT ".toList.isSuffixOf (Dialect.mySql.spell outside))) := by
      rw [hasOperator_spell d .mySql, isSuffixOf_spell d .mySql]
    by_cases hsole : (mark == '(' && !hasOperator (Dialect.mySql.spell operand) &&
        !("NOT ".toList.isSuffixOf (Dialect.mySql.spell outside))) = true
    · refine ⟨some (outside, operand), ?_, fun d => ?_⟩
      · rintro _ _ ⟨rfl⟩
        have hmark : mark = '(' := by
          simp only [Bool.and_eq_true, beq_iff_eq] at hsole
          exact hsole.1.1
        rw [htext _ _ _ rfl, hmark]
      · simp only [soleOperand?, hfound d, Option.map_some]
        rw [hcond d, if_pos hsole]
    · refine ⟨none, by simp, fun d => ?_⟩
      simp only [soleOperand?, hfound d, Option.map_some]
      rw [hcond d, if_neg hsole]
      rfl

/-- Settling a group comes to the same in all dialects. -/
theorem exists_settleGroup (before : List Glyph) :
    ∃ text, Keeps (before ++ glyphsOf groupEnd) text ∧
      ∀ d : Dialect, settleGroup (d.spell before) = d.spell text := by
  have hcommon : IsCommon groupEnd ∧ IsCommon "NOT (".toList ∧ IsCommon " IS NULL)".toList := by
    refine ⟨?_, ?_, ?_⟩ <;> intro d <;> cases d <;> decide
  obtain ⟨found, htext, hfound⟩ := exists_soleOperand before
  cases found with
  | none =>
    refine ⟨before ++ glyphsOf groupEnd, .refl _, fun d => ?_⟩
    rw [settleGroup, hfound d, Dialect.spell_append, Dialect.spell_glyphsOf (hcommon.1 d)]
    simp [groupEnd]
  | some parts =>
    obtain ⟨outside, operand⟩ := parts
    obtain rfl := htext _ _ rfl
    have hopen : Keeps (glyphsOf ['(']) (glyphsOf "NOT (".toList) :=
      .phrase (by decide) (by decide) (by decide) (by decide)
    have hend : Keeps (glyphsOf groupEnd) (glyphsOf " IS NULL)".toList) :=
      .phrase (by decide) (by decide) (by decide) (by decide)
    refine ⟨outside ++ (glyphsOf "NOT (".toList ++ (operand ++ glyphsOf " IS NULL)".toList)), ?_,
      fun d => ?_⟩
    · have hkeeps := (Keeps.refl outside).append (hopen.append ((Keeps.refl operand).append hend))
      simpa using hkeeps
    · rw [settleGroup, hfound d]
      show d.spell outside ++ "NOT (".toList ++ d.spell operand ++ " IS NULL)".toList = _
      rw [Dialect.spell_append, Dialect.spell_append, Dialect.spell_append,
        Dialect.spell_glyphsOf (hcommon.2.1 d), Dialect.spell_glyphsOf (hcommon.2.2 d),
        List.append_assoc, List.append_assoc]

/-- Settling the pieces between groups is one exchange that every dialect spells. -/
theorem exists_settlePieces {pieces : List (List Glyph)} (h : pieces ≠ []) :
    ∃ text, Keeps (List.intercalate (glyphsOf groupEnd) pieces) text ∧
      ∀ d : Dialect, settlePieces (pieces.map d.spell) = d.spell text := by
  induction pieces with
  | nil => exact absurd rfl h
  | cons before pieces ih =>
    cases pieces with
    | nil => exact ⟨before, by simpa using Keeps.refl before, fun d => rfl⟩
    | cons next pieces =>
      obtain ⟨settled, hkeeps, hsettled⟩ := exists_settleGroup before
      obtain ⟨text, hkeeps', htext⟩ := ih (by simp)
      refine ⟨settled ++ text, ?_, fun d => ?_⟩
      · rw [List.intercalate_cons_cons]
        exact hkeeps.append hkeeps'
      · rw [Dialect.spell_append, ← hsettled d, ← htext d]
        rfl

/-- Settling all groups of a text is one exchange that every dialect spells. -/
theorem exists_settleGroups (text : List Glyph) :
    ∃ text', Keeps text text' ∧ ∀ d : Dialect, settleGroups (d.spell text) = d.spell text' := by
  have hfirm (d : Dialect) : d.Firm groupEnd := by constructor <;> cases d <;> decide
  obtain ⟨pieces, hne, rfl, hsplit⟩ := exists_splitOn hfirm text
  obtain ⟨text', hkeeps, htext⟩ := exists_settlePieces hne
  refine ⟨text', hkeeps, fun d => ?_⟩
  rw [← htext d, ← hsplit d]
  rfl

/-- Putting the null tests into a text comes to the same in all dialects, keeps the text tame and
keeps its parameters. -/
theorem exists_finishChars (text : List Glyph) :
    ∃ text', Keeps text text' ∧ ∀ d : Dialect, finishChars (d.spell text) = d.spell text' := by
  have hfirm (d : Dialect) :
      d.Firm equalsNull ∧ d.Firm differsFromNull ∧ d.Firm nullMark.toList := by
    refine ⟨?_, ?_, ?_⟩ <;> constructor <;> cases d <;> decide
  have hcommon : IsCommon " IS NULL".toList ∧ IsCommon " IS NOT NULL".toList ∧
      IsCommon nullWord.toList := by
    refine ⟨?_, ?_, ?_⟩ <;> intro d <;> cases d <;> decide
  obtain ⟨a, ha, hequal⟩ := exists_replaceAll (fun d => (hfirm d).1) hcommon.1
    (.phrase (by decide) (by decide) (by decide) (by decide)) text
  obtain ⟨b, hb, hsettle⟩ := exists_settleGroups a
  obtain ⟨c, hc, hdiffer⟩ := exists_replaceAll (fun d => (hfirm d).2.1) hcommon.2.1
    (.phrase (by decide) (by decide) (by decide) (by decide)) b
  obtain ⟨e, he, hmark⟩ := exists_replaceAll (fun d => (hfirm d).2.2) hcommon.2.2
    (.phrase (by decide) (by decide) (by decide) (by decide)) c
  refine ⟨e, ha.trans (hb.trans (hc.trans he)), fun d => ?_⟩
  rw [finishChars, hequal d, hsettle d, hdiffer d, hmark d]

end Glyph

end SqlCompose
