import SqlCompose.Proofs.Dialect.Tame

/-!
# Texts with the spelling taken out

A text of a dialect is read as symbols: an identifier becomes the name that it denotes, a
placeholder becomes the index of its parameter, and the text of the predicate that holds always, or
never, becomes a truth value (`Dialect.symbols`). What dialects spell differently is gone then. A
tame text is read as the same symbols in all dialects (`Glyph.exists_symbolsFrom`).
-/

namespace SqlCompose

/-- A part of a text with its spelling taken out. -/
inductive Symbol where
  /-- An identifier, as the name it denotes. -/
  | name (name : List Char)
  /-- The parameter with an index, counted from zero. -/
  | param (index : Nat)
  /-- The predicate that holds always, or never. -/
  | truth (b : Bool)
  /-- Another character. -/
  | char (c : Char)
deriving DecidableEq, Repr

namespace Dialect

/-! ## Reading -/

/-- The truth value whose text some segments begin with. -/
def truthAt? (d : Dialect) (segments : List Segment) : Option Bool :=
  [true, false].find? fun b => ((d.truth b).toList.map Segment.char).isPrefixOf segments

/-- The symbols of segments. So many characters in front still belong to a truth value, and the
parameters are counted from an index; no other placeholder is read in their places. -/
def symbolsFrom (d : Dialect) : Nat → Nat → List Segment → Option (List Symbol)
  | _, _, [] => some []
  | skip + 1, next, _ :: rest => d.symbolsFrom skip next rest
  | 0, next, .ident name :: rest => (d.symbolsFrom 0 next rest).map (.name name :: ·)
  | 0, next, .param mark :: rest =>
    if mark = (d.placeholder next).toList then
      (d.symbolsFrom 0 (next + 1) rest).map (.param next :: ·)
    else none
  | 0, next, .char c :: rest =>
    match d.truthAt? (.char c :: rest) with
    | some b => (d.symbolsFrom ((d.truth b).length - 1) next rest).map (.truth b :: ·)
    | none => (d.symbolsFrom 0 next rest).map (.char c :: ·)

/-- The symbols of a text whose parameters are counted from an index. -/
def symbols (d : Dialect) (next : Nat) (text : String) : Option (List Symbol) :=
  d.symbolsFrom 0 next (d.segments text)

/-- How a dialect spells a symbol. -/
def spellSymbol (d : Dialect) : Symbol → List Char
  | .name name => d.quoteChars name
  | .param index => (d.placeholder index).toList
  | .truth b => (d.truth b).toList
  | .char c => [c]

variable (d : Dialect)

/-- The characters of a truth value are passed over once it has been read. -/
theorem symbolsFrom_skip (next : Nat) (word rest : List Segment) :
    d.symbolsFrom word.length next (word ++ rest) = d.symbolsFrom 0 next rest := by
  induction word with
  | nil => rfl
  | cons segment word ih => exact ih

/-- A truth value is recognised where it was written. -/
theorem truthAt?_truth (b : Bool) (rest : List Segment) :
    d.truthAt? ((d.truth b).toList.map .char ++ rest) = some b := by
  cases d <;> cases b <;> rfl

/-- The text of a truth value is read as the truth value. -/
theorem symbolsFrom_truth (b : Bool) (next : Nat) (rest : List Segment) :
    d.symbolsFrom 0 next ((d.truth b).toList.map .char ++ rest) =
      (d.symbolsFrom 0 next rest).map (.truth b :: ·) := by
  have hat := d.truthAt?_truth b rest
  have hne : (d.truth b).toList ≠ [] := by cases d <;> cases b <;> decide
  obtain ⟨c, word, hword⟩ := List.exists_cons_of_ne_nil hne
  have hlength : (d.truth b).length - 1 = (word.map Segment.char).length := by
    rw [← String.length_toList, hword, List.length_map, List.length_cons, Nat.add_sub_cancel]
  rw [hword, List.map_cons, List.cons_append] at hat ⊢
  rw [symbolsFrom, hat]
  show (d.symbolsFrom ((d.truth b).length - 1) next (word.map .char ++ rest)).map _ = _
  rw [hlength, symbolsFrom_skip]

end Dialect

namespace Glyph

/-! ## Tame texts -/

variable {text : List Glyph}

/-- Within an identifier, a tame text goes on to the end of the identifier. -/
theorem exists_closing (h : Tame .inside text) :
    ∃ name rest, text = glyphsOf name ++ .closing :: rest ∧ Tame .behind rest := by
  induction text with
  | nil => exact absurd rfl h
  | cons x text ih =>
    obtain ⟨place, hnext, htext⟩ := h
    cases x with
    | char c =>
      cases hnext
      obtain ⟨name, rest, rfl, hrest⟩ := ih htext
      exact ⟨c :: name, rest, rfl, hrest⟩
    | closing =>
      cases hnext
      exact ⟨[], text, rfl, htext⟩
    | opening | param | truth => cases hnext

/-- What may stand behind an identifier may stand outside of identifiers, and it does not go on
with what it stands behind. -/
theorem outside_of_behind (h : Tame .behind text) :
    Tame .outside text ∧ ∀ d : Dialect, d.Breaks (d.spell text) := by
  cases text with
  | nil =>
    refine ⟨nofun, fun d => ?_⟩
    rintro c ⟨⟩
  | cons x text =>
    obtain ⟨place, hnext, htext⟩ := h
    cases x with
    | char c =>
      obtain ⟨hc, rfl⟩ := Place.next_behind_char.mp hnext
      have hbreak : c ∈ [' ', ')', ',', ';'] := by
        simp only [isBreakChar, List.mem_cons, List.not_mem_nil, or_false,
          decide_eq_true_eq] at hc
        rcases hc with rfl | rfl | rfl <;> decide
      refine ⟨⟨.outside, if_pos (isWordChar_of_isBreakChar hc), htext⟩, fun d => ?_⟩
      have hclose : c ≠ d.closeQuote := (d.breaks_cons hbreak [] c rfl).1
      rw [Dialect.spell_cons, Dialect.spellGlyph_char hclose]
      exact d.breaks_cons hbreak _
    | opening | closing | param | truth => cases hnext

/-- What stands for itself in a tame text is read as it is. -/
theorem segmentsFrom_char (d : Dialect) {c : Char} (h : isWordChar c = true) (text : List Glyph) :
    d.segmentsFrom .outside (d.spell (.char c :: text)) =
      .char c :: d.segmentsFrom .outside (d.spell text) := by
  obtain ⟨hopen, hclose, hmark⟩ := unquoted_of_isWordChar d h
  have hclean : d.IsClean [c] := by simpa [Dialect.IsClean] using ⟨hopen, hmark⟩
  rw [Dialect.spell_cons, Dialect.spellGlyph_char hclose]
  exact d.segmentsFrom_clean hclean _

/-- An identifier is read as its name. -/
theorem segmentsFrom_ident (d : Dialect) (name : List Char) {text : List Glyph}
    (h : d.Breaks (d.spell text)) :
    d.segmentsFrom .outside (d.spell (.opening :: (glyphsOf name ++ .closing :: text))) =
      .ident name :: d.segmentsFrom .outside (d.spell text) := by
  rw [Dialect.spell_quoted]
  exact d.segmentsFrom_quoteChars name fun hhead => (h _ hhead).1 rfl

/-- A parameter is read as its placeholder where the text behind it does not go on with it. -/
theorem segmentsFrom_param (d : Dialect) (index : Nat) {text : List Glyph}
    (h : d.Breaks (d.spell text)) :
    d.segmentsFrom .outside (d.spell (.param index :: text)) =
      .param (d.placeholder index).toList :: d.segmentsFrom .outside (d.spell text) :=
  d.segmentsFrom_placeholder index fun c hc => (h c hc).2

/-- A truth value is read as its characters, which are clean in every dialect. -/
theorem segmentsFrom_truth (d : Dialect) (b : Bool) (text : List Glyph) :
    d.segmentsFrom .outside (d.spell (.truth b :: text)) =
      (d.truth b).toList.map .char ++ d.segmentsFrom .outside (d.spell text) :=
  d.segmentsFrom_clean (d.isClean_truth b) _

/-- A word is not read in front of a tame text if it holds a character that stands outside of
identifiers nowhere, and none that begins a truth value. -/
theorem not_prefix_segments {d : Dialect} {word : List Char} (h : Tame .outside text)
    (hword : ∃ c ∈ word, isWordChar c = false)
    (htruth : ∀ c ∈ word, ∀ b, (d.truth b).toList.head? ≠ some c) :
    ¬ word.map Segment.char <+: d.segmentsFrom .outside (d.spell text) := by
  induction text generalizing word with
  | nil =>
    obtain ⟨c, hc, -⟩ := hword
    intro hbegins
    have hnil : word = [] := by simpa [Dialect.segmentsFrom, Scan.rest] using hbegins
    simp [hnil] at hc
  | cons x text ih =>
    obtain ⟨b, hb, hnot⟩ := hword
    obtain ⟨a, word, rfl⟩ := List.exists_cons_of_ne_nil (List.ne_nil_of_mem hb)
    obtain ⟨place, hnext, htext⟩ := h
    rw [List.map_cons]
    cases x with
    | char c =>
      obtain ⟨hc, rfl⟩ := Place.next_outside_char.mp hnext
      rw [segmentsFrom_char d hc, List.cons_prefix_cons]
      rintro ⟨hac, hbegins⟩
      obtain rfl : a = c := by simpa using hac
      have hrest : b ∈ word := by
        refine (List.mem_cons.mp hb).resolve_left ?_
        rintro rfl
        simp [hc] at hnot
      exact ih htext ⟨b, hrest, hnot⟩ (fun c hmem => htruth c (List.mem_cons_of_mem a hmem)) hbegins
    | opening =>
      cases hnext
      obtain ⟨name, rest, rfl, hrest⟩ := exists_closing htext
      rw [segmentsFrom_ident d name ((outside_of_behind hrest).2 d), List.cons_prefix_cons]
      simp
    | closing => cases hnext
    | param index =>
      cases hnext
      rw [segmentsFrom_param d index ((outside_of_behind htext).2 d), List.cons_prefix_cons]
      simp
    | truth t =>
      have hhead := htruth a (by simp) t
      rw [segmentsFrom_truth]
      cases hchars : (d.truth t).toList with
      | nil => cases d <;> cases t <;> cases hchars
      | cons c chars =>
        rw [hchars, List.head?_cons] at hhead
        rw [List.map_cons, List.cons_append, List.cons_prefix_cons]
        rintro ⟨hac, -⟩
        exact hhead (by rw [Segment.char.inj hac])

/-- No truth value is read where a tame text has a character. -/
theorem truthAt?_char (d : Dialect) {c : Char} (hc : isWordChar c = true)
    (h : Tame .outside text) :
    d.truthAt? (.char c :: d.segmentsFrom .outside (d.spell text)) = none := by
  refine List.find?_eq_none.mpr fun b _ hbegins => ?_
  rw [List.isPrefixOf_iff_prefix] at hbegins
  by_cases hd : d = .postgres
  · -- the texts are words; behind the first letter, none of their letters begins another one
    subst hd
    have hstrange : ∃ c ∈ (Dialect.postgres.truth b).toList.tail, isWordChar c = false :=
      ⟨'E', by cases b <;> decide, by decide⟩
    have hletters : ∀ c ∈ (Dialect.postgres.truth b).toList.tail, ∀ b',
        (Dialect.postgres.truth b').toList.head? ≠ some c := by
      cases b <;> decide
    refine not_prefix_segments h hstrange hletters ?_
    cases b <;> exact (List.cons_prefix_cons.mp hbegins).2
  · have hdigit : (d.truth b).toList = '1' :: (d.truth b).toList.tail := by
      cases d <;> first | exact absurd rfl hd | (cases b <;> rfl)
    rw [hdigit, List.map_cons, List.cons_prefix_cons] at hbegins
    rw [← Segment.char.inj hbegins.1] at hc
    exact absurd hc (by decide)

/-! ## All dialects -/

/-- A tame text whose parameters are in order is read as the same symbols in all dialects, and it is
what the symbols are spelled by. -/
theorem exists_symbolsFrom (h : Tame .outside text) {next : Nat}
    (hparams : params text = List.range' next (params text).length) :
    ∃ symbols, ∀ d : Dialect,
      d.symbolsFrom 0 next (d.segmentsFrom .outside (d.spell text)) = some symbols ∧
        symbols.flatMap d.spellSymbol = d.spell text := by
  induction hn : text.length using Nat.strongRecOn generalizing text next with
  | ind n ih =>
    subst hn
    cases text with
    | nil => exact ⟨[], fun d => ⟨rfl, rfl⟩⟩
    | cons x text =>
      obtain ⟨place, hnext, htext⟩ := h
      cases x with
      | char c =>
        obtain ⟨hc, rfl⟩ := Place.next_outside_char.mp hnext
        obtain ⟨symbols, hsymbols⟩ := ih text.length (by simp) htext hparams rfl
        refine ⟨.char c :: symbols, fun d => ⟨?_, ?_⟩⟩
        · rw [segmentsFrom_char d hc, Dialect.symbolsFrom, truthAt?_char d hc htext]
          simp [(hsymbols d).1]
        · rw [List.flatMap_cons, (hsymbols d).2, Dialect.spell_cons,
            Dialect.spellGlyph_char (unquoted_of_isWordChar d hc).2.1]
          rfl
      | opening =>
        cases hnext
        obtain ⟨name, rest, rfl, hrest⟩ := exists_closing htext
        obtain ⟨houtside, hbreaks⟩ := outside_of_behind hrest
        have hrestparams :
            params (.opening :: (glyphsOf name ++ .closing :: rest)) = params rest := by
          simp [params]
        rw [hrestparams] at hparams
        obtain ⟨symbols, hsymbols⟩ := ih rest.length (by simp; omega) houtside hparams rfl
        refine ⟨.name name :: symbols, fun d => ⟨?_, ?_⟩⟩
        · rw [segmentsFrom_ident d name (hbreaks d), Dialect.symbolsFrom, (hsymbols d).1]
          rfl
        · rw [List.flatMap_cons, (hsymbols d).2, Dialect.spell_quoted]
          rfl
      | closing => cases hnext
      | param index =>
        cases hnext
        obtain ⟨houtside, hbreaks⟩ := outside_of_behind htext
        have hrange : index :: params text = List.range' next ((params text).length + 1) := hparams
        rw [List.range'_succ, List.cons.injEq] at hrange
        obtain ⟨rfl, hrange⟩ := hrange
        obtain ⟨symbols, hsymbols⟩ := ih text.length (by simp) houtside hrange rfl
        refine ⟨.param index :: symbols, fun d => ⟨?_, ?_⟩⟩
        · rw [segmentsFrom_param d index (hbreaks d), Dialect.symbolsFrom, if_pos rfl,
            (hsymbols d).1]
          rfl
        · rw [List.flatMap_cons, (hsymbols d).2]
          rfl
      | truth b =>
        cases hnext
        obtain ⟨symbols, hsymbols⟩ :=
          ih text.length (by simp) (outside_of_behind htext).1 hparams rfl
        refine ⟨.truth b :: symbols, fun d => ⟨?_, ?_⟩⟩
        · rw [segmentsFrom_truth, Dialect.symbolsFrom_truth, (hsymbols d).1]
          rfl
        · rw [List.flatMap_cons, (hsymbols d).2]
          rfl

end Glyph

end SqlCompose
