import SqlCompose.Proofs.Dialect.Rewording
import SqlCompose.Proofs.Query.Selection

/-!
# Placeholders and parameters

Every value that a walk binds is bound together with its parameter, so the parameters of a draft
count its values in their order (`Query.Numbered`). The statement that a draft becomes writes no
other parameter around the condition, and the null tests keep the placeholders of the condition.
Hence the placeholders of a statement, from left to right, are those of its parameters.
-/

namespace SqlCompose

/-! ## Drafts -/

namespace Query

variable {e : Entity} {bound : List Value}

/-- A draft behind some bound values: its tokens do not run together, and their parameters count
the values that were bound since. -/
structure Numbered (bound : List Value) (d : Draft) : Prop where
  readable (dialect : Dialect) : dialect.Readable d.tokens
  counted : ∃ vs, d.values = bound ++ vs ∧ indices d.tokens = List.range' bound.length vs.length

/-- A draft that begins behind some bound values counts none yet. -/
theorem numbered_ofBound (bound : List Value) : Numbered bound (Draft.ofBound bound) where
  readable _ := .nil
  counted := ⟨[], by simp [Draft.ofBound]⟩

namespace Numbered

variable {d d' : Draft}

/-- Only tokens and values matter. -/
theorem congr (h : Numbered bound d) (ht : d'.tokens = d.tokens) (hv : d'.values = d.values) :
    Numbered bound d' :=
  ⟨ht ▸ h.readable, by rw [ht, hv]; exact h.counted⟩

/-- A token that is no parameter and does not run together with what stands in front of it. -/
theorem put (h : Numbered bound d) {t : Token} (ht : d.Open ∨ t.isBreak = true)
    (hclean : ∀ dialect : Dialect, dialect.CleanToken t) (hindex : t.index? = none) :
    Numbered bound (d.put t) where
  readable dialect := by
    refine (h.readable dialect).append (.singleton (hclean dialect)) (ht.imp_right fun hb => ?_)
    exact Token.beginBroken_cons hb []
  counted := by simpa [Draft.put, hindex] using h.counted

/-- A bound value gets the next number. -/
theorem bind (h : Numbered bound d) (ho : d.Open) (v : Value) : Numbered bound (d.bind v) where
  readable dialect := (h.readable dialect).append (.singleton trivial) (.inl ho)
  counted := by
    obtain ⟨vs, hvs, hindices⟩ := h.counted
    refine ⟨vs ++ [v], by simp [Draft.bind, hvs], ?_⟩
    simp [Draft.bind, Draft.put, Token.index?, hindices, hvs, List.range'_concat]

/-- An opening parenthesis changes no number. -/
theorem openGroup (h : Numbered bound d) : Numbered bound d.openGroup where
  readable dialect := by
    have hword : dialect.Readable [.word "("] ∧ dialect.Readable [.word ")"] := by
      constructor <;> exact .singleton (by cases dialect <;> decide)
    have hgroup : dialect.Readable [.op .and, .word "("] :=
      (Dialect.Readable.singleton (t := .op .and) trivial).append hword.1
        (.inl (by simp [Token.EndOpen, Token.isOperand]))
    refine Dialect.Readable.append_break ?_ hgroup rfl
    split
    · exact h.readable dialect
    · exact .append_break (.cons_word (by decide) (by cases dialect <;> decide)
        (h.readable dialect)) hword.2 (by decide)
  counted := by
    obtain ⟨vs, hvs, hindices⟩ := h.counted
    refine ⟨vs, hvs, ?_⟩
    simp only [Draft.openGroup]
    split <;> simp [Token.index?, hindices]

end Numbered

/-- Every step keeps the parameters in line with the values. -/
theorem numbered_step {d d' : Draft} (h : Step e d d') (hd : Numbered bound d) :
    Numbered bound d' := by
  cases h with
  | column ho hcol => exact hd.put (.inl ho) (fun _ => trivial) rfl
  | op op => exact hd.put (.inr rfl) (fun _ => trivial) rfl
  | null ho => exact hd.put (.inl ho) (fun _ => trivial) rfl
  | bind ho hv => exact hd.bind ho _
  | truth ho b => exact hd.put (.inl ho) (fun _ => trivial) rfl
  | opening ho hword =>
    refine hd.put (.inl ho) (fun dialect => ?_) rfl
    simp only [List.mem_cons, List.not_mem_nil, or_false] at hword
    rcases hword with rfl | rfl <;> cases dialect <;> decide
  | word _ hword =>
    simp only [List.mem_cons, List.not_mem_nil, or_false] at hword
    refine hd.put (.inr ?_) (fun dialect => ?_) rfl
    · rcases hword with rfl | rfl | rfl <;> decide
    · rcases hword with rfl | rfl | rfl <;> cases dialect <;> decide
  | nested b => exact hd.congr rfl rfl
  | group hne => exact hd.openGroup
  | afterFilter op => cases op <;> exact hd.congr rfl rfl
  | applied h => exact hd.congr (applyStep_condition h).1 (applyStep_condition h).2.1

/-- The parameters of a draft count its values. -/
theorem numbered_visit {p : Bool} {x : Expr} {d : Draft}
    (h : visit e p x (Draft.ofBound bound) = .ok d) : Numbered bound d :=
  (walk h (Draft.open_of_tokens_eq_nil rfl)).invariant (fun _ _ => numbered_step)
    (numbered_ofBound bound)

/-- Where no values are bound before, the parameters count from zero. -/
theorem indices_visit {p : Bool} {x : Expr} {d : Draft}
    (h : visit e p x (Draft.ofBound []) = .ok d) :
    indices d.tokens = List.range (indices d.tokens).length := by
  obtain ⟨vs, -, hindices⟩ := (numbered_visit h).counted
  rw [hindices, List.length_range', List.range_eq_range']
  rfl

end Query

/-! ## Statements -/

namespace Dialect

variable {d : Dialect}

/-- Tokens that are read back and hold no parameter. -/
structure Phrase (d : Dialect) (tokens : List Token) : Prop extends d.Readable tokens where
  unmarked : indices tokens = []

namespace Phrase

variable {a b tokens : List Token}

/-- No tokens are a phrase. -/
theorem nil : d.Phrase [] := ⟨.nil, rfl⟩

/-- A quoted name is a phrase. -/
theorem ident (name : String) : d.Phrase [.ident name] := ⟨.singleton trivial, rfl⟩

/-- Clean text is a phrase. -/
theorem word {text : String} (h : d.IsClean text.toList) : d.Phrase [.word text] :=
  ⟨.singleton (t := .word text) h, rfl⟩

/-- Digits hold no quote and no mark. -/
theorem number (n : Nat) : d.Phrase [.number n] := by
  refine word fun c hc => ?_
  have hdigit := isDigit_of_mem_toString hc
  constructor <;> rintro rfl <;> revert hdigit <;> cases d <;> decide

/-- Phrases side by side are a phrase if they cannot run together. -/
theorem append (ha : d.Phrase a) (hb : d.Phrase b) (h : Token.EndOpen a ∨ Token.BeginBroken b) :
    d.Phrase (a ++ b) :=
  ⟨ha.toReadable.append hb.toReadable h, by simp [ha.unmarked, hb.unmarked]⟩

/-- A word that anything can stand behind, in front of other tokens. -/
theorem cons_word {text : String} (h : d.Phrase tokens)
    (hopen : (Token.word text).isOperand = false) (hclean : d.IsClean text.toList) :
    d.Phrase (.word text :: tokens) :=
  (word hclean).append h (.inl (by simpa [Token.EndOpen] using hopen))

/-- Tokens that begin with a break, behind others. -/
theorem append_break {t : Token} (ha : d.Phrase a) (hb : d.Phrase (t :: b))
    (ht : t.isBreak = true) : d.Phrase (a ++ t :: b) :=
  ha.append hb (.inr (Token.beginBroken_cons ht b))

/-- Phrases with commas between them are a phrase. -/
theorem commaSeparated {groups : List (List Token)} (h : ∀ g ∈ groups, d.Phrase g) :
    d.Phrase (commaSeparated groups) := by
  induction groups with
  | nil => exact nil
  | cons g groups ih =>
    obtain ⟨hg, hgroups⟩ := List.forall_mem_cons.mp h
    cases groups with
    | nil => simpa using hg
    | cons next groups =>
      have hrest : d.Phrase (.word ", " :: SqlCompose.commaSeparated (next :: groups)) :=
        (ih hgroups).cons_word (by decide) (by cases d <;> decide)
      rw [commaSeparated_cons_cons]
      exact hg.append_break hrest (by decide)

end Phrase

/-- A phrase that can stand behind anything. -/
structure Suffix (d : Dialect) (tokens : List Token) : Prop extends d.Phrase tokens where
  broken : Token.BeginBroken tokens

namespace Suffix

variable {a b tokens : List Token}

/-- No tokens are a suffix. -/
theorem nil : d.Suffix [] := ⟨.nil, by simp [Token.BeginBroken]⟩

/-- A phrase behind clean text that begins with punctuation is a suffix. -/
theorem cons_word {text : String} (h : d.Phrase tokens) (hbreak : (Token.word text).isBreak = true)
    (hopen : (Token.word text).isOperand = false) (hclean : d.IsClean text.toList) :
    d.Suffix (.word text :: tokens) :=
  ⟨h.cons_word hopen hclean, Token.beginBroken_cons hbreak _⟩

/-- Suffixes side by side are a suffix. -/
theorem append (ha : d.Suffix a) (hb : d.Suffix b) : d.Suffix (a ++ b) :=
  ⟨ha.toPhrase.append hb.toPhrase (.inr hb.broken), Token.beginBroken_append ha.broken hb.broken⟩

/-- A number between two words. -/
theorem cons_number {first : String} {n : Nat} (h : d.Suffix tokens)
    (hbreak : (Token.word first).isBreak = true) (hopen : (Token.word first).isOperand = false)
    (hclean : d.IsClean first.toList) : d.Suffix (.word first :: .number n :: tokens) :=
  cons_word ((Phrase.number n).append h.toPhrase (.inr h.broken)) hbreak hopen hclean

end Suffix

/-! ## Selections -/

/-- What is listed is a phrase. -/
theorem phrase_item (item : Item) : d.Phrase item.tokens := by
  cases item with
  | star | count => exact .word (by cases d <;> decide)
  | literal n => exact .number n
  | column name => exact .ident name

/-- An ordering is a phrase. -/
theorem phrase_order (o : OrderBy) : d.Phrase o.tokens := by
  refine Phrase.cons_word ?_ (by decide) (by cases d <;> decide)
  split
  · exact (Phrase.ident _).append_break (.word (by cases d <;> decide)) (by decide)
  · exact .ident _

/-- An ordering can stand behind anything. -/
theorem suffix_orderTokens (order : Option OrderBy) : d.Suffix (orderTokens order) := by
  cases order with
  | none => exact .nil
  | some o => exact .cons_word (phrase_order o) (by decide) (by decide) (by cases d <;> decide)

/-- A range of row numbers can stand behind anything. -/
theorem suffix_range (range : NumberRange) : d.Suffix range.tokens := by
  cases range with
  | between first last =>
    have hlast : d.Suffix [.word " AND ", .number last.toNat] :=
      Suffix.nil.cons_number (by decide) (by decide) (by cases d <;> decide)
    exact hlast.cons_number (by decide) (by decide) (by cases d <;> decide)
  | beyond last => exact Suffix.nil.cons_number (by decide) (by decide) (by cases d <;> decide)

/-- What keeps a part of the rows can stand behind anything. -/
theorem suffix_slice (slice : Slice) : d.Suffix slice.tokens := by
  have word {text : String} (hbreak : (Token.word text).isBreak = true)
      (hclean : d.IsClean text.toList) : d.Suffix [.word text] :=
    ⟨.word hclean, Token.beginBroken_cons hbreak _⟩
  have hend : d.Suffix [.word ";"] := word (by decide) (by cases d <;> decide)
  have hrows : d.Suffix [.word " ROWS"] := word (by decide) (by cases d <;> decide)
  match slice with
  | .all => exact .nil
  | .offset skip none =>
    exact (hrows.append hend).cons_number (by decide) (by decide) (by cases d <;> decide)
  | .offset skip (some n) =>
    have honly : d.Suffix [.word " ROWS ONLY"] := word (by decide) (by cases d <;> decide)
    have hfetch : d.Suffix [.word " FETCH NEXT ", .number n, .word " ROWS ONLY", .word ";"] :=
      (honly.append hend).cons_number (by decide) (by decide) (by cases d <;> decide)
    exact (hrows.append hfetch).cons_number (by decide) (by decide) (by cases d <;> decide)
  | .limit skip take =>
    have htake : d.Suffix [.word ",", .number take] :=
      Suffix.nil.cons_number (by decide) (by decide) (by cases d <;> decide)
    exact htake.cons_number (by decide) (by decide) (by cases d <;> decide)

/-- The source of the rows can stand behind anything. -/
theorem suffix_source_before (table : String) (source : Source) :
    d.Suffix (source.before table) := by
  have hfrom : d.Suffix [.word " FROM ", .ident table] :=
    .cons_word (.ident table) (by decide) (by decide) (by cases d <;> decide)
  cases source with
  | table => exact hfrom
  | numbered order range =>
    have hrow : d.Suffix [.word ") AS ", .ident rowNumberName, .word " FROM ", .ident table] :=
      .cons_word ((Phrase.ident _).append_break hfrom.toPhrase (by decide)) (by decide) (by decide)
        (by cases d <;> decide)
    exact .cons_word ((phrase_order order).append_break hrow.toPhrase (by decide)) (by decide)
      (by decide) (by cases d <;> decide)

/-- What closes the source of the rows can stand behind anything. -/
theorem suffix_source_after (source : Source) : d.Suffix source.after := by
  cases source with
  | table => exact .nil
  | numbered order range =>
    have hrange := suffix_range (d := d) range
    have hwhere : d.Phrase (.word " WHERE " :: .ident rowNumberName :: range.tokens) :=
      ((Phrase.ident rowNumberName).append hrange.toPhrase (.inr hrange.broken)).cons_word
        (by decide) (by cases d <;> decide)
    exact .cons_word ((Phrase.ident pagedName).append_break hwhere (by decide)) (by decide)
      (by decide) (by cases d <;> decide)

/-- What a selection writes in front of its condition is a phrase. -/
theorem phrase_before (s : Selection) : d.Phrase s.before := by
  have hsource := suffix_source_before (d := d) s.table s.source
  have hitems : d.Phrase (commaSeparated (s.items.map Item.tokens)) :=
    .commaSeparated fun g hg => by
      obtain ⟨item, -, rfl⟩ := List.mem_map.mp hg
      exact phrase_item item
  have hlist := hitems.append hsource.toPhrase (.inr hsource.broken)
  unfold Selection.before
  split
  next n _ =>
    have hclose : d.Phrase (.word ") " :: _) :=
      hlist.cons_word (by decide) (by cases d <;> decide)
    exact ((Phrase.number n).append_break hclose (by decide)).cons_word (by decide)
      (by cases d <;> decide)
  · exact hlist.cons_word (by decide) (by cases d <;> decide)

/-- What a selection writes behind its condition can stand behind anything. -/
theorem suffix_after (s : Selection) : d.Suffix s.after :=
  (suffix_source_after s.source).append ((suffix_orderTokens s.order).append (suffix_slice s.slice))

/-! ## Placeholders of a statement -/

/-- Finishing a text keeps its placeholders, which are those of the tokens in order. -/
theorem marks_finish {tokens : List Token} (h : d.Readable tokens) :
    marks (d.segments (NullTest.finish (d.write tokens))) =
      (indices tokens).map fun i => (d.placeholder i).toList := by
  have hmarks := marks_finishChars (d := d) [] (d.chars tokens) []
  simp only [List.nil_append, List.append_nil, d.marks_chars h] at hmarks
  simpa [segments, NullTest.finish] using hmarks

/-- The placeholders of a selection are those of its condition. -/
theorem marks_selection {s : Selection} {tokens : List Token} (h : d.Readable tokens)
    (hs : s.condition = NullTest.finish (d.write tokens)) :
    marks (d.segments (s.write d)) = (indices tokens).map fun i => (d.placeholder i).toList := by
  have hbefore := phrase_before (d := d) s
  have hafter := suffix_after (d := d) s
  by_cases hempty : s.condition = ""
  · have hwhole : d.Phrase (s.before ++ s.after) :=
      hbefore.append hafter.toPhrase (.inr hafter.broken)
    have hnone : (indices tokens).map (fun i => (d.placeholder i).toList) = [] := by
      rw [← marks_finish h, ← hs, hempty]
      rfl
    rw [hnone]
    have hmarks := d.marks_chars hwhole.toReadable
    rw [hwhole.unmarked] at hmarks
    simpa [segments, Selection.write, whereText, hempty] using hmarks
  · have hwhere : d.Readable ([.word " WHERE "] ++ (tokens ++ s.after)) :=
      .cons_word (by decide) (by cases d <;> decide)
        (h.append hafter.toReadable (.inr hafter.broken))
    have hwhole : d.Readable (s.before ++ ([.word " WHERE "] ++ (tokens ++ s.after))) :=
      hbefore.toReadable.append hwhere (.inr (Token.beginBroken_cons (by decide) _))
    have htext : (s.write d).toList = (d.chars s.before ++ " WHERE ".toList) ++
        (NullTest.finishChars (d.chars tokens) ++ d.chars s.after) := by
      have hcond : s.condition.toList = NullTest.finishChars (d.chars tokens) := by
        simp [hs, NullTest.finish]
      simp [Selection.write, whereText, hempty, hcond]
    have hmarks := d.marks_chars hwhole
    simp only [indices_append, hbefore.unmarked, hafter.unmarked] at hmarks
    rw [segments, htext, marks_finishChars]
    simpa [tokenText, Token.index?] using hmarks

end Dialect

/-- The placeholders of a text are those of some indices if the marks read in it are. -/
theorem placeholders_of_marks {d : Dialect} {text : String} {indices : List Nat}
    (h : Dialect.marks (d.segments text) = indices.map fun i => (d.placeholder i).toList) :
    d.placeholders text = indices.map d.placeholder := by
  simp [Dialect.placeholders, h]

/-- The placeholders of a statement count its parameters, and those of a condition count the
parameters behind the values that were bound before it. -/
theorem placeholders_eq_parameters (d : Dialect) (e : Entity) :
    (∀ root q, d.compile e root = .ok q →
      d.placeholders q.sql = (List.range q.params.length).map d.placeholder) ∧
    ∀ predicate bound t, d.planFilter e predicate bound = .ok t →
      bound.length ≤ t.params.length ∧
      d.placeholders t.fragment =
        (List.range' bound.length (t.params.length - bound.length)).map d.placeholder ∧
      t.params.take bound.length = bound.map d.param := by
  constructor
  · intro root q h
    obtain ⟨draft, hdraft, s, hs, rfl⟩ := compile_eq_ok.mp h
    have hn : Query.Numbered [] draft := Query.numbered_visit hdraft
    obtain ⟨vs, hvalues, hindices⟩ := hn.counted
    have hmarks := Dialect.marks_selection (hn.readable d) (selection_condition hs)
    rw [hindices] at hmarks
    simpa [hvalues, List.range_eq_range'] using placeholders_of_marks hmarks
  · intro predicate bound t h
    obtain ⟨draft, hdraft, rfl⟩ := planFilter_eq_ok.mp h
    have hn := Query.numbered_visit hdraft
    obtain ⟨vs, hvalues, hindices⟩ := hn.counted
    have hmarks := Dialect.marks_finish (hn.readable d)
    rw [hindices] at hmarks
    have hplace := placeholders_of_marks hmarks
    simpa [Dialect.ofDraft, Draft.setNested, hvalues] using hplace

/-- A table with a column whose name holds a quote and a placeholder. -/
def oddTable : Entity := (Entity.ofTable "t").addColumn "a]@p7" .text

/-- A condition on that column. -/
def oddCondition : Expr := .binary .eq (.column "a]@p7") (.constant (.int 1))

/-- A column whose name holds a bracket and a placeholder, with a value bound in front of it or
none. -/
theorem placeholders_oddCondition :
    (∃ q, Dialect.sqlServer.compile oddTable (.call .filter [.source, oddCondition]) = .ok q ∧
      Dialect.sqlServer.placeholders q.sql =
        (List.range q.params.length).map Dialect.sqlServer.placeholder) ∧
    ∃ t, Dialect.sqlServer.planFilter oddTable oddCondition [.int 5] = .ok t ∧ 1 ≤ t.params.length ∧
      Dialect.sqlServer.placeholders t.fragment =
        (List.range' 1 (t.params.length - 1)).map Dialect.sqlServer.placeholder ∧
      t.params.take 1 = [.int 5] := by
  have hcompile : Dialect.sqlServer.compile oddTable (.call .filter [.source, oddCondition]) =
      .ok ⟨"SELECT * FROM [t] WHERE [a]]@p7] = @p0", [.int 1], .all, .sqlServer⟩ := by rfl
  have hplan : Dialect.sqlServer.planFilter oddTable oddCondition [.int 5] =
      .ok ⟨"[a]]@p7] = @p1", [.int 5, .int 1], .all, none, none, none, none⟩ := by rfl
  obtain ⟨hlength, hplaces, hbound⟩ :=
    (placeholders_eq_parameters .sqlServer oddTable).2 _ [.int 5] _ hplan
  have hsql := (placeholders_eq_parameters .sqlServer oddTable).1 _ _ hcompile
  exact ⟨⟨_, hcompile, hsql⟩, ⟨_, hplan, hlength, hplaces, hbound⟩⟩

end SqlCompose
