import SqlCompose.Proofs.Dialect.Token

/-!
# Text that no dialect has spelled

A condition is a list of glyphs before a dialect spells it: characters, the marks around an
identifier, parameters and truth values. Dialects spell a glyph by different characters, but they
agree on where a phrase occurs in a text, if none of its characters begins the spelling of another
glyph and its first character stands within no spelling (`Dialect.Firm`). So cutting a text at such
a phrase, asking whether it occurs, and looking for the last parenthesis come out the same in all
dialects (`Glyph.exists_splitOn`, `Dialect.contains_spell`, `Glyph.exists_splitLast`).
-/

namespace SqlCompose

/-- A part of a text that dialects spell in their own ways. -/
inductive Glyph where
  /-- A character, within an identifier or outside of it. -/
  | char (c : Char)
  /-- The mark in front of an identifier. -/
  | opening
  /-- The mark behind an identifier. -/
  | closing
  /-- The parameter with an index, counted from zero. -/
  | param (index : Nat)
  /-- The predicate that holds always, or never. -/
  | truth (b : Bool)
deriving DecidableEq, Repr

/-- The glyphs of characters. -/
abbrev glyphsOf (text : List Char) : List Glyph := text.map .char

namespace Glyph

/-- The characters among glyphs. -/
def chars (text : List Glyph) : List Char :=
  text.filterMap fun
    | .char c => some c
    | _ => none

/-- The characters among the glyphs of a text are the text. -/
@[simp] theorem chars_glyphsOf (text : List Char) : chars (glyphsOf text) = text := by
  simp [chars, List.filterMap_map]

/-- A phrase that occurs among glyphs occurs among their characters. -/
theorem infix_chars {phrase : List Char} {text : List Glyph} (h : glyphsOf phrase <:+: text) :
    phrase <:+: chars text := by
  rw [← chars_glyphsOf phrase]
  exact h.filterMap _

/-- A phrase at the end of glyphs is at the end of their characters. -/
theorem suffix_chars {phrase : List Char} {text : List Glyph} (h : glyphsOf phrase <:+ text) :
    phrase <:+ chars text := by
  rw [← chars_glyphsOf phrase]
  exact h.filterMap _

end Glyph

namespace Dialect

/-! ## Spelling -/

/-- How a dialect spells a glyph; a character that could end an identifier is written twice. -/
def spellGlyph (d : Dialect) : Glyph → List Char
  | .char c => if c = d.closeQuote then [d.closeQuote, d.closeQuote] else [c]
  | .opening => [d.openQuote]
  | .closing => [d.closeQuote]
  | .param index => (d.placeholder index).toList
  | .truth b => (d.truth b).toList

/-- How a dialect spells a text. -/
def spell (d : Dialect) (text : List Glyph) : List Char := text.flatMap d.spellGlyph

variable (d : Dialect)

@[simp] theorem spell_nil : d.spell [] = [] := rfl

@[simp] theorem spell_cons (x : Glyph) (text : List Glyph) :
    d.spell (x :: text) = d.spellGlyph x ++ d.spell text := rfl

/-- Spelling works glyph by glyph, so it distributes over concatenation. -/
@[simp] theorem spell_append (a b : List Glyph) : d.spell (a ++ b) = d.spell a ++ d.spell b := by
  simp [spell]

/-- Characters that could end an identifier are doubled. -/
theorem spell_name (name : List Char) :
    d.spell (glyphsOf name) = Text.doubling d.closeQuote name := by
  simp [spell, List.flatMap_map, Text.doubling, spellGlyph]

/-- An identifier is spelled by its name in quotes. -/
theorem spell_quoted (name : List Char) (text : List Glyph) :
    d.spell (.opening :: (glyphsOf name ++ .closing :: text)) =
      d.quoteChars name ++ d.spell text := by
  simp [quoteChars, spellGlyph, spell_name]

/-! ## Characters that stand for themselves -/

/-- Whether a character begins the spelling of no other glyph. -/
def IsFirm (c : Char) : Prop :=
  c ≠ d.openQuote ∧ c ≠ d.closeQuote ∧ c ≠ d.markStart ∧ (d.truth true).toList.head? ≠ some c ∧
    (d.truth false).toList.head? ≠ some c

instance (c : Char) : Decidable (d.IsFirm c) := by unfold IsFirm; infer_instance

/-- Whether a character stands in no spelling of another glyph but at its beginning. -/
def IsLeading (c : Char) : Prop :=
  c ≠ d.closeQuote ∧ d.continuesMark c = false ∧ c ∉ (d.truth true).toList.tail ∧
    c ∉ (d.truth false).toList.tail

instance (c : Char) : Decidable (d.IsLeading c) := by unfold IsLeading; infer_instance

/-- Whether a phrase stands for itself in a spelled text, wherever it begins. -/
structure Firm (phrase : List Char) : Prop where
  ne_nil : phrase ≠ []
  firm : ∀ c ∈ phrase, d.IsFirm c
  leading : ∀ c ∈ phrase.take 1, d.IsLeading c

variable {d}

/-- A character that closes no identifier is spelled as itself. -/
theorem spellGlyph_char {c : Char} (h : c ≠ d.closeQuote) : d.spellGlyph (.char c) = [c] :=
  if_neg h

/-- Characters that could not end an identifier are spelled by themselves. -/
theorem spell_glyphsOf {phrase : List Char} (h : ∀ c ∈ phrase, c ≠ d.closeQuote) :
    d.spell (glyphsOf phrase) = phrase := by
  induction phrase with
  | nil => rfl
  | cons c phrase ih =>
    obtain ⟨hc, hphrase⟩ := List.forall_mem_cons.mp h
    rw [glyphsOf, List.map_cons, spell_cons, spellGlyph_char hc, ih hphrase,
      List.singleton_append]

/-- Every glyph is spelled, and a firm character begins the spelling of its own only. -/
theorem spellGlyph_cases (d : Dialect) (x : Glyph) :
    ∃ c tail, d.spellGlyph x = c :: tail ∧ (d.IsFirm c → x = .char c) ∧
      ∀ b, d.IsLeading b → b ∉ tail := by
  cases x with
  | char c =>
    by_cases hc : c = d.closeQuote
    · refine ⟨d.closeQuote, [d.closeQuote], if_pos hc, fun h => absurd rfl h.2.1, ?_⟩
      intro b hb
      simpa using hb.1
    · exact ⟨c, [], if_neg hc, fun _ => rfl, fun _ _ => List.not_mem_nil⟩
  | opening =>
    exact ⟨d.openQuote, [], rfl, fun h => absurd rfl h.1, fun _ _ => List.not_mem_nil⟩
  | closing =>
    exact ⟨d.closeQuote, [], rfl, fun h => absurd rfl h.2.1, fun _ _ => List.not_mem_nil⟩
  | param index =>
    obtain ⟨digits, heq, hdigits⟩ := d.placeholder_eq index
    refine ⟨d.markStart, digits, heq, fun h => absurd rfl h.2.2.1, ?_⟩
    intro b hb hmem
    exact Bool.false_ne_true (hb.2.1.symm.trans (hdigits b hmem))
  | truth b =>
    have hhead : (d.truth b).toList ≠ [] := by cases b <;> cases d <;> decide
    obtain ⟨c, tail, heq⟩ := List.exists_cons_of_ne_nil hhead
    refine ⟨c, tail, heq, ?_, ?_⟩
    · intro hc
      cases b with
      | true => exact absurd (by rw [heq]; rfl) hc.2.2.2.1
      | false => exact absurd (by rw [heq]; rfl) hc.2.2.2.2
    · intro a ha
      cases b with
      | true => simpa [heq] using ha.2.2.1
      | false => simpa [heq] using ha.2.2.2

/-! ## Where a phrase occurs -/

/-- A phrase begins a spelled text if and only if it begins the text, if its characters begin no
spelling but their own. -/
theorem prefix_flatMap {f : Glyph → List Char} {own : Char → Prop}
    (hown : ∀ c, own c → f (.char c) = [c])
    (hf : ∀ x, ∃ c tail, f x = c :: tail ∧ (own c → x = .char c)) {phrase : List Char}
    (h : ∀ c ∈ phrase, own c) (text : List Glyph) :
    phrase <+: text.flatMap f ↔ glyphsOf phrase <+: text := by
  induction phrase generalizing text with
  | nil => simp
  | cons c phrase ih =>
    obtain ⟨hc, hphrase⟩ := List.forall_mem_cons.mp h
    cases text with
    | nil => simp
    | cons x text =>
      obtain ⟨b, tail, heq, hb⟩ := hf x
      rw [List.flatMap_cons, heq, List.cons_append, glyphsOf, List.map_cons,
        List.cons_prefix_cons, List.cons_prefix_cons]
      constructor
      · rintro ⟨rfl, hrest⟩
        obtain rfl := hb hc
        obtain ⟨-, rfl⟩ := List.cons.inj (heq.symm.trans (hown c hc))
        exact ⟨rfl, (ih hphrase text).mp hrest⟩
      · rintro ⟨rfl, hrest⟩
        obtain ⟨rfl, rfl⟩ := List.cons.inj (heq.symm.trans (hown c hc))
        exact ⟨rfl, (ih hphrase text).mpr hrest⟩

/-- A phrase of firm characters begins a spelled text just when its glyphs begin the text. -/
theorem prefix_spell {phrase : List Char} (h : ∀ c ∈ phrase, d.IsFirm c) (text : List Glyph) :
    phrase <+: d.spell text ↔ glyphsOf phrase <+: text := by
  refine prefix_flatMap (fun c hc => spellGlyph_char hc.2.1) (fun x => ?_) h text
  obtain ⟨c, tail, heq, hfirm, -⟩ := d.spellGlyph_cases x
  exact ⟨c, tail, heq, hfirm⟩

open Text (NoneBegins)

/-- Where a firm phrase does not begin, it begins nowhere in the spelling of the next glyph. -/
theorem noneBegins_spellGlyph {phrase : List Char} (h : d.Firm phrase) {x : Glyph}
    {text : List Glyph} (hx : ¬ glyphsOf phrase <+: x :: text) :
    NoneBegins phrase (d.spellGlyph x) (d.spell text) := by
  obtain ⟨c, tail, heq, -, htail⟩ := d.spellGlyph_cases x
  rw [← prefix_spell h.firm, spell_cons, heq, List.cons_append] at hx
  obtain ⟨b, rest, rfl⟩ := List.exists_cons_of_ne_nil h.ne_nil
  rw [heq]
  exact ⟨hx, Text.noneBegins_of_not_mem (htail b (h.leading b (by simp)))⟩

/-- A firm phrase occurs in a spelled text if and only if it occurs in the text. -/
theorem contains_spell {phrase : List Char} (h : d.Firm phrase) (text : List Glyph) :
    Text.contains phrase (d.spell text) = true ↔ glyphsOf phrase <:+: text := by
  have hnone : NoneBegins phrase (d.spell text) [] ↔ ¬ glyphsOf phrase <:+: text := by
    induction text with
    | nil => simpa using h.ne_nil
    | cons x text ih =>
      rw [spell_cons, Text.noneBegins_append, ih, List.append_nil, List.infix_cons_iff, not_or]
      refine and_congr_left fun _ => ⟨fun hn hbegins => ?_, noneBegins_spellGlyph h⟩
      obtain ⟨c, tail, heq, -, -⟩ := d.spellGlyph_cases x
      rw [heq] at hn
      refine hn.1 ?_
      rw [← List.cons_append, ← heq, ← spell_cons]
      exact (prefix_spell h.firm _).mpr hbegins
  rw [← Bool.not_eq_false, Text.contains_eq_false_iff h.ne_nil, hnone, not_not]

/-- Whether a character ends the spelling of no other glyph. -/
def IsFinal (d : Dialect) (c : Char) : Prop :=
  c ≠ d.openQuote ∧ c ≠ d.closeQuote ∧ c ≠ d.markStart ∧ d.continuesMark c = false ∧
    (d.truth true).toList.getLast? ≠ some c ∧ (d.truth false).toList.getLast? ≠ some c

instance (c : Char) : Decidable (d.IsFinal c) := by unfold IsFinal; infer_instance

/-- Every glyph is spelled, and a final character ends the spelling of its own only. -/
theorem spellGlyph_cases_last (d : Dialect) (x : Glyph) :
    ∃ front c, d.spellGlyph x = front ++ [c] ∧ (d.IsFinal c → x = .char c) := by
  cases x with
  | char c =>
    by_cases hc : c = d.closeQuote
    · exact ⟨[d.closeQuote], d.closeQuote, if_pos hc, fun h => absurd rfl h.2.1⟩
    · exact ⟨[], c, if_neg hc, fun _ => rfl⟩
  | opening => exact ⟨[], d.openQuote, rfl, fun h => absurd rfl h.1⟩
  | closing => exact ⟨[], d.closeQuote, rfl, fun h => absurd rfl h.2.1⟩
  | param index =>
    obtain ⟨digits, heq, hdigits⟩ := d.placeholder_eq index
    rcases List.eq_nil_or_concat' digits with rfl | ⟨front, c, rfl⟩
    · exact ⟨[], d.markStart, heq, fun h => absurd rfl h.2.2.1⟩
    · refine ⟨d.markStart :: front, c, heq, fun h => ?_⟩
      exact absurd (h.2.2.2.1.symm.trans (hdigits c (by simp))) Bool.false_ne_true
  | truth b =>
    have hne : (d.truth b).toList ≠ [] := by cases b <;> cases d <;> decide
    refine ⟨(d.truth b).toList.dropLast, (d.truth b).toList.getLast hne,
      (List.dropLast_concat_getLast hne).symm, fun h => ?_⟩
    have hlast := List.getLast?_eq_some_getLast hne
    cases b with
    | true => exact absurd hlast h.2.2.2.2.1
    | false => exact absurd hlast h.2.2.2.2.2

/-- A phrase of final characters ends a spelled text if and only if it ends the text. -/
theorem suffix_spell {phrase : List Char} (h : ∀ c ∈ phrase, d.IsFinal c) (text : List Glyph) :
    phrase <:+ d.spell text ↔ glyphsOf phrase <:+ text := by
  have hreverse : (d.spell text).reverse =
      text.reverse.flatMap fun x => (d.spellGlyph x).reverse := by
    simp [spell, List.reverse_flatMap, Function.comp_def]
  rw [← List.reverse_prefix, ← List.reverse_prefix, hreverse, glyphsOf, ← List.map_reverse]
  refine prefix_flatMap (fun c hc => ?_) (fun x => ?_) (by simpa using h) _
  · rw [spellGlyph_char hc.2.1, List.reverse_singleton]
  · obtain ⟨front, c, heq, hc⟩ := d.spellGlyph_cases_last x
    exact ⟨c, front.reverse, by simp [heq], hc⟩

end Dialect

/-! ## Cutting a text -/

namespace Glyph

open Text (splitOn splitLast)

/-- All dialects cut a text at a firm phrase in the same places. -/
theorem exists_splitOn {phrase : List Char} (h : ∀ d : Dialect, d.Firm phrase)
    (text : List Glyph) : ∃ pieces, pieces ≠ [] ∧ List.intercalate (glyphsOf phrase) pieces = text ∧
      ∀ d : Dialect, splitOn phrase (d.spell text) = pieces.map d.spell := by
  have hne : phrase ≠ [] := (h .mySql).ne_nil
  induction hn : text.length using Nat.strongRecOn generalizing text with
  | ind n ih =>
    subst hn
    by_cases hp : glyphsOf phrase <+: text
    · -- an occurrence is passed over as a whole
      obtain ⟨rest, rfl⟩ := hp
      have hpos : 0 < phrase.length := List.length_pos_iff.mpr hne
      obtain ⟨pieces, hpieces, htext, hsplit⟩ := ih rest.length (by simp; omega) rest rfl
      refine ⟨[] :: pieces, by simp, ?_, fun d => ?_⟩
      · obtain ⟨piece, pieces, rfl⟩ := List.exists_cons_of_ne_nil hpieces
        rw [List.intercalate_cons_cons, htext, List.nil_append]
      · rw [Dialect.spell_append, Dialect.spell_glyphsOf fun c hc => ((h d).firm c hc).2.1,
          Text.splitOn_phrase_append hne, hsplit d]
        rfl
    · cases text with
      | nil => exact ⟨[[]], by simp, by simp, fun d => Text.splitOn_nil hne⟩
      | cons x rest =>
        obtain ⟨pieces, hpieces, htext, hsplit⟩ := ih rest.length (by simp) rest rfl
        obtain ⟨piece, pieces, rfl⟩ := List.exists_cons_of_ne_nil hpieces
        refine ⟨(x :: piece) :: pieces, by simp, ?_, fun d => ?_⟩
        · rw [← htext]
          cases pieces <;> simp [List.intercalate_cons_cons]
        · rw [Dialect.spell_cons, Text.splitOn_append hne (Dialect.noneBegins_spellGlyph (h d) hp),
            hsplit d, List.map_cons, Text.foldr_consFirst]
          rfl

/-- All dialects find the last of some firm characters in the same place. Where none is found
behind a glyph, the glyph is the last one or there is none. -/
theorem exists_splitLast {test : Char → Bool}
    (h : ∀ (d : Dialect) (c : Char), test c = true → d.IsFirm c ∧ d.IsLeading c)
    (text : List Glyph) : ∃ found : Option (List Glyph × Char × List Glyph),
      (∀ before c after, found = some (before, c, after) → text = before ++ .char c :: after) ∧
      ∀ d : Dialect, splitLast test (d.spell text) =
        found.map fun (before, c, after) => (d.spell before, c, d.spell after) := by
  induction text with
  | nil => exact ⟨none, by simp, fun d => rfl⟩
  | cons x text ih =>
    obtain ⟨found, htext, hfound⟩ := ih
    cases found with
    | some parts =>
      obtain ⟨before, c, after⟩ := parts
      refine ⟨some (x :: before, c, after), ?_, fun d => ?_⟩
      · rintro _ _ _ ⟨rfl⟩
        rw [htext _ _ _ rfl, List.cons_append]
      · exact Text.splitLast_prepend _ (hfound d)
    | none =>
      by_cases hx : ∃ c, x = .char c ∧ test c = true
      · obtain ⟨c, rfl, hc⟩ := hx
        refine ⟨some ([], c, text), by simp, fun d => ?_⟩
        have hrest := Text.splitLast_eq_none_iff.mp (hfound d)
        rw [Dialect.spell_cons, Dialect.spellGlyph_char (h d c hc).1.2.1, List.singleton_append]
        exact Text.splitLast_append [] hc hrest
      · refine ⟨none, by simp, fun d => ?_⟩
        have hrest := Text.splitLast_eq_none_iff.mp (hfound d)
        refine Text.splitLast_eq_none_iff.mpr fun c hc => ?_
        rcases List.mem_append.mp hc with hglyph | hc
        · rw [Bool.eq_false_iff]
          intro htest
          obtain ⟨b, tail, heq, hfirm, hleading⟩ := d.spellGlyph_cases x
          rw [heq] at hglyph
          rcases List.mem_cons.mp hglyph with rfl | htail
          · exact hx ⟨c, hfirm (h d c htest).1, htest⟩
          · exact hleading c (h d c htest).2 htail
        · exact hrest c hc

end Glyph

end SqlCompose
