import SqlCompose.Proofs.Dialect.Symbol
import SqlCompose.Proofs.Paging.Recorded
import SqlCompose.Proofs.Query.Placeholders

/-!
# Queries in all dialects

A walk knows no dialect. What it leaves behind is a wording: a condition as symbols, values, and
what is said about rows and columns. Every dialect puts the wording into its own words
(`Wording.In`), the null tests in the condition included, or no dialect accepts the query and all
refuse it with the same error. Dialects part only where an ordering is missing
(`planQuery_in_all_dialects`).
-/

namespace SqlCompose

/-! ## The glyphs of tokens -/

namespace Token

/-- The glyphs of a token. -/
def glyphs : Token → List Glyph
  | .ident name => .opening :: (glyphsOf name.toList ++ [.closing])
  | .param index => [.param index]
  | .truth b => [.truth b]
  | .op o => glyphsOf o.text.toList
  | .null => glyphsOf nullMark.toList
  | .word text => glyphsOf text.toList

/-- Whether a word holds only characters that may stand outside of identifiers. -/
def IsFree : Token → Prop
  | .word text => ∀ c ∈ text.toList, Glyph.isWordChar c = true
  | _ => True

/-- Where the text goes on behind a token. -/
def behind : Token → Glyph.Place
  | .ident _ | .param _ | .truth _ => .behind
  | .op _ | .null | .word _ => .outside

/-- A token that has to be followed by a break is an operand. -/
theorem isOperand_of_behind {t : Token} (h : t.behind = .behind) : t.isOperand = true := by
  cases t <;> first | rfl | cases h

end Token

namespace Glyph

/-- Operators hold only characters that may stand outside of identifiers. -/
theorem isWordChar_op (op : BinaryOp) : ∀ c ∈ op.text.toList, isWordChar c = true := by
  cases op <;> decide

/-- The mark of null holds only characters that may stand outside of identifiers. -/
theorem isWordChar_null : ∀ c ∈ nullMark.toList, isWordChar c = true := by decide

/-- The glyphs of tokens are spelled by the text of the tokens. -/
theorem spell_glyphs (d : Dialect) {tokens : List Token} (h : ∀ t ∈ tokens, t.IsFree) :
    d.spell (tokens.flatMap Token.glyphs) = d.chars tokens := by
  have hphrase {phrase : List Char} (h : ∀ c ∈ phrase, isWordChar c = true) :
      d.spell (glyphsOf phrase) = phrase :=
    Dialect.spell_glyphsOf fun c hc => (unquoted_of_isWordChar d (h c hc)).2.1
  induction tokens with
  | nil => rfl
  | cons t tokens ih =>
    obtain ⟨ht, htokens⟩ := List.forall_mem_cons.mp h
    rw [List.flatMap_cons, Dialect.spell_append, ih htokens, Dialect.chars_cons]
    congr 1
    cases t with
    | ident name => simpa [Token.glyphs, Dialect.tokenText] using d.spell_quoted name.toList []
    | param | truth => exact List.append_nil _
    | op op => exact hphrase (isWordChar_op op)
    | null => exact hphrase isWordChar_null
    | word text => exact hphrase ht

/-- The parameters among the glyphs of tokens are those of the tokens. -/
theorem params_glyphs (tokens : List Token) :
    params (tokens.flatMap Token.glyphs) = indices tokens := by
  induction tokens with
  | nil => rfl
  | cons t tokens ih =>
    have ht : params t.glyphs = t.index?.toList := by
      cases t with
      | ident name => simp [Token.glyphs, Token.index?, params]
      | param | truth => rfl
      | op | null | word => exact params_glyphsOf _
    rw [List.flatMap_cons, params_append, ht, ih, indices_cons]

/-- The glyphs of a token may stand outside of identifiers. -/
theorem tame_glyphs_append {t : Token} (h : t.IsFree) {rest : List Glyph}
    (hrest : Tame t.behind rest) : Tame .outside (t.glyphs ++ rest) := by
  cases t with
  | ident name =>
    refine ⟨.inside, rfl, ?_⟩
    show Tame .inside (glyphsOf name.toList ++ [Glyph.closing] ++ rest)
    rw [List.append_assoc, tame_inside_glyphsOf]
    exact ⟨.behind, rfl, hrest⟩
  | param | truth => exact ⟨.behind, rfl, hrest⟩
  | op op => exact (tame_outside_glyphsOf _ _).mpr ⟨isWordChar_op op, hrest⟩
  | null => exact (tame_outside_glyphsOf _ _).mpr ⟨isWordChar_null, hrest⟩
  | word text => exact (tame_outside_glyphsOf _ _).mpr ⟨h, hrest⟩

/-- The glyphs of a token that begins with a break may stand behind an identifier. -/
theorem tame_behind_glyphs_append {t : Token} (h : t.IsFree) (hbreak : t.isBreak = true)
    {rest : List Glyph} (ht : Tame .outside (t.glyphs ++ rest)) :
    Tame .behind (t.glyphs ++ rest) := by
  have hphrase {c : Char} {text : List Char} (hc : isBreakChar c = true)
      (htext : Tame .outside (glyphsOf (c :: text) ++ rest)) :
      Tame .behind (glyphsOf (c :: text) ++ rest) :=
    (tame_behind_glyphsOf (List.cons_ne_nil c text) rest).mpr ⟨hc, htext⟩
  cases t with
  | op op =>
    have htext : op.text.toList = ' ' :: (op.word.toList ++ [' ']) := by cases op <;> decide
    simp only [Token.glyphs, htext] at ht ⊢
    exact hphrase (by decide) ht
  | word text =>
    cases hchars : text.toList with
    | nil => simp [Token.isBreak, hchars] at hbreak
    | cons c chars =>
      have hword : isWordChar c = true := h c (by simp [hchars])
      simp only [Token.glyphs, hchars] at ht ⊢
      refine hphrase ?_ ht
      have hmem : c ∈ [' ', ')', ',', ';'] := by simpa [Token.isBreak, hchars] using hbreak
      simp only [List.mem_cons, List.not_mem_nil, or_false] at hmem
      rcases hmem with rfl | rfl | rfl | rfl
      · rfl
      · rfl
      · rfl
      · exact absurd hword (by decide)
  | ident | param | null | truth => cases hbreak

/-- Tokens that do not run together make a tame text. -/
theorem tame_glyphs {tokens : List Token} (hchain : tokens.IsChain Token.Follows)
    (h : ∀ t ∈ tokens, t.IsFree) : Tame .outside (tokens.flatMap Token.glyphs) := by
  induction tokens with
  | nil => exact nofun
  | cons t tokens ih =>
    obtain ⟨ht, htokens⟩ := List.forall_mem_cons.mp h
    have hrest := ih hchain.of_cons htokens
    rw [List.flatMap_cons]
    refine tame_glyphs_append ht ?_
    cases hplace : t.behind with
    | outside => exact hrest
    | inside => cases t <;> cases hplace
    | behind =>
      cases tokens with
      | nil => exact nofun
      | cons next tokens =>
        have hbreak : next.isBreak = true :=
          (List.isChain_cons_cons.mp hchain).1 (Token.isOperand_of_behind hplace)
        exact tame_behind_glyphs_append (htokens next (by simp)) hbreak hrest

end Glyph

/-! ## Drafts -/

namespace Query

variable {e : Entity} {bound : List Value}

/-- The words that a walk writes hold only characters that may stand outside of identifiers. -/
theorem isFree_visit {p : Bool} {x : Expr} {draft : Draft}
    (h : visit e p x (Draft.ofBound bound) = .ok draft) : ∀ t ∈ draft.tokens, t.IsFree := by
  have hwords : ∀ word ∈ walkWords, ∀ c ∈ word.toList, Glyph.isWordChar c = true := by decide
  refine tokens_visit hwords (fun t ht => ?_) h
  cases t with
  | word text => exact absurd rfl (ht text)
  | _ => trivial

/-- The condition of a draft is read as the same symbols in all dialects, and it is what they are
spelled by. The null tests keep the condition tame and its parameters in order. -/
theorem exists_spelling_visit {p : Bool} {x : Expr} {draft : Draft}
    (h : visit e p x (Draft.ofBound bound) = .ok draft) :
    ∃ text, ∀ d : Dialect,
      d.symbols bound.length (NullTest.finish (d.write draft.tokens)) = some text ∧
        (NullTest.finish (d.write draft.tokens)).toList = text.flatMap d.spellSymbol := by
  have hnumbered := numbered_visit h
  have hfree := isFree_visit h
  obtain ⟨vs, -, hindices⟩ := hnumbered.counted
  obtain ⟨text, hkeeps, hfinish⟩ := Glyph.exists_finishChars (draft.tokens.flatMap Token.glyphs)
  have htame : Glyph.Tame .outside text := by
    have hbefore := Glyph.tame_glyphs (hnumbered.readable .mySql).chain hfree
    have hafter := hkeeps.tame [] [] (fun _ => id) .outside
    simp only [List.append_nil] at hafter
    exact hafter hbefore
  have hparams : Glyph.params text = List.range' bound.length (Glyph.params text).length := by
    rw [hkeeps.params, Glyph.params_glyphs, hindices, List.length_range']
  obtain ⟨symbols, hsymbols⟩ := Glyph.exists_symbolsFrom htame hparams
  refine ⟨symbols, fun d => ?_⟩
  have htext : (NullTest.finish (d.write draft.tokens)).toList = d.spell text := by
    rw [← hfinish d, Glyph.spell_glyphs d hfree]
    simp [NullTest.finish]
  rw [Dialect.symbols, Dialect.segments, htext]
  exact ⟨(hsymbols d).1, (hsymbols d).2.symm⟩

/-- The condition of a draft is read as the same symbols in all dialects. -/
theorem exists_symbols_visit {p : Bool} {x : Expr} {draft : Draft}
    (h : visit e p x (Draft.ofBound bound) = .ok draft) :
    ∃ text, ∀ d : Dialect,
      d.symbols bound.length (NullTest.finish (d.write draft.tokens)) = some text :=
  (exists_spelling_visit h).imp fun _ htext d => (htext d).1

end Query

/-! ## Plans -/

/-- What a plan says, in no dialect. -/
structure Wording where
  /-- The condition. -/
  text : List Symbol
  /-- The values to bind, in the order of their parameters. -/
  values : List Value
  /-- What the query answers with. -/
  mode : ResultMode
  /-- The columns that are kept. -/
  selected : Option SelectList
  /-- How many rows are skipped. -/
  skip : Option UInt64
  /-- How many rows are taken. -/
  take : Option UInt64
  /-- The ordering, by the name of its column. -/
  order : Option OrderBy

namespace Wording

/-- Whether a plan says this in the words of a dialect, behind so many bound values. -/
structure In (w : Wording) (d : Dialect) (bound : Nat) (t : Plan) : Prop where
  text : d.symbols bound t.fragment = some w.text
  values : t.params = w.values.map d.param
  mode : t.mode = w.mode
  selected : t.projection = w.selected.map d.selectList
  skip : t.skip = w.skip
  take : t.take = w.take
  order : t.order = w.order.map fun o => ⟨d.quote o.column, o.descending⟩

/-- What a draft says. -/
def ofDraft (text : List Symbol) (draft : Draft) : Wording :=
  ⟨text, draft.values, draft.mode, draft.selected, draft.skip, draft.take, draft.order⟩

/-- A plan says what its draft says, if the condition is read as these symbols. -/
theorem ofDraft_in {d : Dialect} {bound : Nat} {text : List Symbol} {draft : Draft}
    (h : d.symbols bound (NullTest.finish (d.write draft.tokens)) = some text) :
    (ofDraft text draft).In d bound (d.ofDraft draft) :=
  ⟨h, rfl, rfl, rfl, rfl, rfl, rfl⟩

end Wording

/-- All dialects refuse a predicate with the same error, or they say the same in their words. -/
theorem planFilter_in_all_dialects (e : Entity) (predicate : Expr) (bound : List Value) :
    (∃ fault, ∀ d : Dialect, d.planFilter e predicate bound = .error fault) ∨
      ∃ w : Wording, ∀ d : Dialect, ∃ t,
        d.planFilter e predicate bound = .ok t ∧ w.In d bound.length t := by
  cases h : Query.visit e true predicate (Draft.ofBound bound) with
  | error fault =>
    refine .inl ⟨fault, fun d => ?_⟩
    rw [Dialect.planFilter, Query.draftFilter, h]
    rfl
  | ok draft =>
    obtain ⟨text, htext⟩ := Query.exists_symbols_visit h
    refine .inr ⟨.ofDraft text draft, fun d => ?_⟩
    exact ⟨_, planFilter_eq_ok.mpr ⟨draft, h, rfl⟩, Wording.ofDraft_in (htext d)⟩

/-- All dialects refuse a query with the same error, or they say the same in their words, and then
what they say is compiled unless an ordering is missing. -/
theorem planQuery_in_all_dialects (e : Entity) (root : Expr) :
    (∃ fault, ∀ d : Dialect, d.planQuery e root = .error fault ∧ d.compile e root = .error fault) ∨
      ∃ w : Wording, ∀ d : Dialect,
        (∃ t, d.planQuery e root = .ok t ∧ w.In d 0 t) ∧
          ((∃ q, d.compile e root = .ok q) ∨ d.compile e root = .error .missingOrder) := by
  cases h : Query.visit e false root (Draft.ofBound []) with
  | error fault =>
    refine .inl ⟨fault, fun d => ?_⟩
    have hplan : d.planQuery e root = .error fault := by
      rw [Dialect.planQuery, Query.draft, Draft.empty, h]
      rfl
    exact ⟨hplan, bind_eq_error.mpr (.inl hplan)⟩
  | ok draft =>
    obtain ⟨text, htext⟩ := Query.exists_symbols_visit h
    refine .inr ⟨.ofDraft text draft, fun d => ?_⟩
    have hplan : d.planQuery e root = .ok (d.ofDraft draft) :=
      planQuery_eq_ok.mpr ⟨draft, h, rfl⟩
    refine ⟨⟨_, hplan, Wording.ofDraft_in (htext d)⟩, ?_⟩
    cases hcompile : d.compile e root with
    | ok q => exact .inl ⟨q, rfl⟩
    | error fault =>
      right
      rcases bind_eq_error.mp hcompile with hfault | ⟨t, -, hrender⟩
      · rw [hplan] at hfault
        cases hfault
      · rcases bind_eq_error.mp hrender with hform | ⟨form, -, hwritten⟩
        · rw [(pageForm_eq_error.mp hform).1]
        · cases hwritten

end SqlCompose
