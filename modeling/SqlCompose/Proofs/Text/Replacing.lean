import SqlCompose.Text.Search

/-!
# What replacing a phrase does to a text

Cutting a text at a phrase and joining the pieces again are recursions on the text that pass over
an occurrence as a whole. The equations here say what happens at an occurrence
(`replaceAll_phrase_append`) and at a character where none begins (`replaceAll_cons`), and
`cut_induction` is the induction that goes with them. `NoneBegins` says that no occurrence of a
phrase begins in a part of a text, whatever lies beyond that part.
-/

namespace SqlCompose.Text

variable {phrase : List Char}

/-! ## Cutting -/

/-- Passing over characters is cutting what is left without them. -/
theorem splitOnFrom_eq_drop (phrase : List Char) (n : Nat) (text : List Char) :
    splitOnFrom phrase n text = splitOnFrom phrase 0 (text.drop n) := by
  induction text generalizing n with
  | nil => cases n <;> simp [splitOnFrom]
  | cons c rest ih =>
    cases n with
    | zero => rfl
    | succ n => rw [splitOnFrom, List.drop_succ_cons, ih n]

/-- The empty text has one piece, itself. -/
theorem splitOn_nil (h : phrase ≠ []) : splitOn phrase [] = [[]] := by
  simp [splitOn, splitOnFrom, h]

/-- An occurrence at the front leaves an empty piece in front of the others. -/
theorem splitOn_phrase_append (h : phrase ≠ []) (text : List Char) :
    splitOn phrase (phrase ++ text) = [] :: splitOn phrase text := by
  obtain ⟨c, rest, rfl⟩ := List.exists_cons_of_ne_nil h
  simp [splitOn, splitOnFrom, splitOnFrom_eq_drop _ rest.length]

/-- A character where no occurrence begins belongs to the first piece. -/
theorem splitOn_cons (h : phrase ≠ []) {c : Char} {text : List Char}
    (hc : ¬ phrase <+: c :: text) :
    splitOn phrase (c :: text) = consFirst c (splitOn phrase text) := by
  simp [splitOn, splitOnFrom, h, hc]

/-- Induction along the cuts of a text: at an occurrence the whole phrase is passed over, and one
character anywhere else. -/
@[elab_as_elim]
theorem cut_induction (h : phrase ≠ []) {motive : List Char → Prop} (nil : motive [])
    (occurrence : ∀ text, motive text → motive (phrase ++ text))
    (character : ∀ c text, ¬ phrase <+: c :: text → motive text → motive (c :: text)) :
    ∀ text, motive text := by
  intro text
  induction hn : text.length using Nat.strongRecOn generalizing text with
  | ind n ih =>
    subst hn
    by_cases hp : phrase <+: text
    · obtain ⟨rest, rfl⟩ := hp
      have hpos : 0 < phrase.length := List.length_pos_iff.mpr h
      exact occurrence rest (ih rest.length (by simp; omega) rest rfl)
    · cases text with
      | nil => exact nil
      | cons c rest => exact character c rest hp (ih rest.length (by simp) rest rfl)

/-! ## Joining -/

/-- A character put in front of the first piece stands in front of the joined text. -/
theorem intercalate_consFirst (separator : List Char) (c : Char) {pieces : List (List Char)}
    (h : pieces ≠ []) :
    List.intercalate separator (consFirst c pieces) = c :: List.intercalate separator pieces := by
  match pieces with
  | [] => exact absurd rfl h
  | [piece] => simp [consFirst]
  | piece :: next :: pieces => simp [consFirst, List.intercalate_cons_cons]

/-- An empty first piece leaves the separator in front of the rest. -/
theorem intercalate_nil_cons (separator : List Char) {pieces : List (List Char)}
    (h : pieces ≠ []) :
    List.intercalate separator ([] :: pieces) = separator ++ List.intercalate separator pieces := by
  match pieces with
  | [] => exact absurd rfl h
  | piece :: pieces => simp [List.intercalate_cons_cons]

variable (h : phrase ≠ []) (replacement : List Char)
include h

/-- There is nothing to replace in the empty text. -/
theorem replaceAll_nil : replaceAll phrase replacement [] = [] := by
  simp [replaceAll, splitOn_nil h]

/-- An occurrence at the front is replaced. -/
theorem replaceAll_phrase_append (text : List Char) :
    replaceAll phrase replacement (phrase ++ text) =
      replacement ++ replaceAll phrase replacement text := by
  rw [replaceAll, splitOn_phrase_append h, intercalate_nil_cons _ (splitOn_ne_nil _ _), replaceAll]

/-- A character where no occurrence begins stays. -/
theorem replaceAll_cons {c : Char} {text : List Char} (hc : ¬ phrase <+: c :: text) :
    replaceAll phrase replacement (c :: text) = c :: replaceAll phrase replacement text := by
  rw [replaceAll, splitOn_cons h hc, intercalate_consFirst _ _ (splitOn_ne_nil _ _), replaceAll]

omit h in
/-- A phrase of one character is replaced character by character. -/
theorem replaceAll_singleton (c : Char) (text : List Char) :
    replaceAll [c] replacement text = text.flatMap fun x => if x = c then replacement else [x] := by
  have hne : [c] ≠ [] := List.cons_ne_nil c []
  induction text with
  | nil => exact replaceAll_nil hne replacement
  | cons x text ih =>
    rw [List.flatMap_cons, ← ih]
    by_cases hx : x = c
    · rw [if_pos hx, hx]
      exact replaceAll_phrase_append hne replacement text
    · have hnone : ¬ [c] <+: x :: text := by simpa [List.cons_prefix_cons] using Ne.symm hx
      rw [if_neg hx, replaceAll_cons hne replacement hnone, List.singleton_append]

/-- Replacing a phrase by another one leaves nothing only where there was nothing. -/
theorem replaceAll_eq_nil (hr : replacement ≠ []) {text : List Char} :
    replaceAll phrase replacement text = [] ↔ text = [] := by
  induction text using cut_induction h with
  | nil => simp [replaceAll_nil h]
  | occurrence text ih => simp [replaceAll_phrase_append h, h, hr]
  | character c text hc ih => simp [replaceAll_cons h _ hc]

omit replacement in
/-- The pieces of a text, joined by the phrase again, are the text. -/
theorem intercalate_splitOn (text : List Char) :
    List.intercalate phrase (splitOn phrase text) = text := by
  induction text using cut_induction h with
  | nil => simp [splitOn_nil h]
  | occurrence text ih =>
    rw [splitOn_phrase_append h, intercalate_nil_cons _ (splitOn_ne_nil _ _), ih]
  | character c text hc ih =>
    rw [splitOn_cons h hc, intercalate_consFirst _ _ (splitOn_ne_nil _ _), ih]

omit h replacement

/-! ## Parts of a text in which no occurrence begins -/

/-- Whether no occurrence of a phrase begins in a text behind which another text follows. -/
def NoneBegins (phrase : List Char) : List Char → List Char → Prop
  | [], _ => True
  | c :: text, rest => ¬ phrase <+: c :: (text ++ rest) ∧ NoneBegins phrase text rest

/-- No occurrence begins inside the empty text. -/
@[simp] theorem noneBegins_nil (phrase rest : List Char) : NoneBegins phrase [] rest := trivial

/-- No occurrence begins in a text when none begins at its first character or in its tail. -/
@[simp] theorem noneBegins_cons {c : Char} {text rest : List Char} :
    NoneBegins phrase (c :: text) rest ↔
      ¬ phrase <+: c :: (text ++ rest) ∧ NoneBegins phrase text rest := Iff.rfl

/-- No occurrence begins in two texts side by side when none begins in either. -/
theorem noneBegins_append {a b rest : List Char} :
    NoneBegins phrase (a ++ b) rest ↔
      NoneBegins phrase a (b ++ rest) ∧ NoneBegins phrase b rest := by
  induction a with
  | nil => simp
  | cons c a ih => simp [ih, and_assoc]

/-- No occurrence begins in a text without the first character of the phrase. -/
theorem noneBegins_of_not_mem {c : Char} {text rest : List Char} (hc : c ∉ text) :
    NoneBegins (c :: phrase) text rest := by
  induction text with
  | nil => trivial
  | cons d text ih =>
    rw [List.mem_cons, not_or] at hc
    exact ⟨fun hp => hc.1 (List.cons_prefix_cons.mp hp).1, ih hc.2⟩

/-- Where a phrase does not begin, no longer one does. -/
theorem NoneBegins.longer {text rest : List Char} (h : NoneBegins phrase text rest)
    (more : List Char) : NoneBegins (phrase ++ more) text rest := by
  induction text with
  | nil => trivial
  | cons c text ih => exact ⟨fun hp => h.1 ((List.prefix_append phrase more).trans hp), ih h.2⟩

/-- A part of a text in which no occurrence begins stays as it is. -/
theorem replaceAll_append (h : phrase ≠ []) (replacement : List Char) {text rest : List Char}
    (hn : NoneBegins phrase text rest) :
    replaceAll phrase replacement (text ++ rest) =
      text ++ replaceAll phrase replacement rest := by
  induction text with
  | nil => rfl
  | cons c text ih => rw [List.cons_append, replaceAll_cons h _ hn.1, ih hn.2, List.cons_append]

/-- A part of a text in which no occurrence begins belongs to the first piece. -/
theorem splitOn_append (h : phrase ≠ []) {text rest : List Char}
    (hn : NoneBegins phrase text rest) :
    splitOn phrase (text ++ rest) = text.foldr consFirst (splitOn phrase rest) := by
  induction text with
  | nil => rfl
  | cons c text ih => rw [List.cons_append, splitOn_cons h hn.1, ih hn.2, List.foldr_cons]

/-- A text put in front character by character joins the first piece. -/
theorem foldr_consFirst (a piece : List Char) (pieces : List (List Char)) :
    a.foldr consFirst (piece :: pieces) = (a ++ piece) :: pieces := by
  induction a with
  | nil => rfl
  | cons c a ih => simp [ih, consFirst]

/-- A phrase occurs in a text unless no occurrence begins in it. -/
theorem contains_eq_false_iff (h : phrase ≠ []) (text : List Char) :
    contains phrase text = false ↔ NoneBegins phrase text [] := by
  induction text with
  | nil => simp [contains, splitFirst, h]
  | cons c text ih =>
    by_cases hp : phrase <+: c :: text
    · simp [contains, splitFirst, hp]
    · simpa [contains, splitFirst, hp] using ih

/-! ## The last character that satisfies a test -/

/-- A text whose characters all fail a test has no last one that passes. -/
theorem splitLast_eq_none {test : Char → Bool} {text : List Char}
    (h : ∀ c ∈ text, test c = false) : splitLast test text = none := by
  induction text with
  | nil => rfl
  | cons c text ih =>
    rw [List.forall_mem_cons] at h
    simp [splitLast, ih h.2, h.1]

/-- There is no last character that passes a test when every character fails it. -/
theorem splitLast_eq_none_iff {test : Char → Bool} {a : List Char} :
    splitLast test a = none ↔ ∀ c ∈ a, test c = false := by
  refine ⟨fun h => ?_, splitLast_eq_none⟩
  induction a with
  | nil => simp
  | cons c a ih =>
    unfold splitLast at h
    split at h
    · cases h
    · next hnone =>
      have hc : test c = false := by simpa using h
      exact List.forall_mem_cons.mpr ⟨hc, ih hnone⟩

/-- What stands in front of a text does not matter where it holds such a character. -/
theorem splitLast_prepend {test : Char → Bool} (p : List Char) {a outside operand : List Char}
    {c : Char} (h : splitLast test a = some (outside, c, operand)) :
    splitLast test (p ++ a) = some (p ++ outside, c, operand) := by
  induction p with
  | nil => exact h
  | cons b p ih => simp [splitLast, ih]

/-- The last character that satisfies a test is followed by none that does. -/
theorem splitLast_append {test : Char → Bool} (before : List Char) {c : Char} {after : List Char}
    (hc : test c = true) (h : ∀ c ∈ after, test c = false) :
    splitLast test (before ++ c :: after) = some (before, c, after) := by
  induction before with
  | nil => simp [splitLast, splitLast_eq_none h, hc]
  | cons b before ih => simp [splitLast, ih]

/-- A text is its part before the last character that satisfies a test, that character, and the
part after it. -/
theorem eq_append_of_splitLast {test : Char → Bool} {text before after : List Char} {c : Char}
    (h : splitLast test text = some (before, c, after)) : text = before ++ c :: after := by
  induction text generalizing before with
  | nil => simp [splitLast] at h
  | cons b text ih =>
    unfold splitLast at h
    split at h
    · next found => cases h; rw [ih found, List.cons_append]
    · split at h <;> cases h
      rfl

/-- The last character that satisfies a test does so, and none behind it does. -/
theorem test_of_splitLast {test : Char → Bool} {text before after : List Char} {c : Char}
    (h : splitLast test text = some (before, c, after)) :
    test c = true ∧ ∀ b ∈ after, test b = false := by
  induction text generalizing before with
  | nil => cases h
  | cons b text ih =>
    unfold splitLast at h
    split at h
    next found =>
      cases h
      exact ih found
    next hnone =>
      split at h
      next hb =>
        cases h
        exact ⟨hb, splitLast_eq_none_iff.mp hnone⟩
      · cases h

/-! ## Phrases without a separator -/

section Separated

variable {α : Type} {word a b : List α} {c : α}

/-- A word without a separator begins a text in front of the separator or not at all. -/
theorem prefix_of_prefix_append_cons (hc : c ∉ word) (h : word <+: a ++ c :: b) : word <+: a := by
  have hfront : a ++ [c] <+: a ++ c :: b := ⟨b, by simp⟩
  rcases List.prefix_or_prefix_of_prefix h hfront with hle | hle
  · rcases List.prefix_concat_iff.mp hle with rfl | hbegins
    · simp at hc
    · exact hbegins
  · exact absurd (hle.subset (by simp)) hc

/-- A word without a separator occurs on one of its sides. -/
theorem infix_append_cons (hc : c ∉ word) (h : word <:+: a ++ c :: b) :
    word <:+: a ∨ word <:+: b := by
  induction a with
  | nil =>
    rcases List.infix_cons_iff.mp h with hbegins | hinfix
    · exact .inl (prefix_of_prefix_append_cons (a := []) hc hbegins).isInfix
    · exact .inr hinfix
  | cons x a ih =>
    rcases List.infix_cons_iff.mp h with hbegins | hinfix
    · exact .inl (prefix_of_prefix_append_cons (a := x :: a) hc hbegins).isInfix
    · exact (ih hinfix).imp_left fun h => h.trans (List.suffix_cons x a).isInfix

end Separated

/-- Where a phrase begins in front of a character that it does not hold, it ends there too. -/
theorem noneBegins_concat {text : List Char} {c : Char} (hc : c ∉ phrase)
    (h : NoneBegins phrase (text ++ [c]) []) (rest : List Char) :
    NoneBegins phrase (text ++ [c]) rest := by
  have hbegins {text : List Char} (hp : phrase <+: text ++ [c] ++ rest) :
      phrase <+: text ++ [c] := by
    rw [List.append_assoc, List.singleton_append] at hp
    exact (prefix_of_prefix_append_cons hc hp).trans (List.prefix_append text [c])
  induction text with
  | nil => exact ⟨fun hp => h.1 (@hbegins [] hp), trivial⟩
  | cons b text ih =>
    refine ⟨fun hp => h.1 ?_, ih h.2⟩
    rw [List.append_nil]
    exact @hbegins (b :: text) hp

/-- A phrase occurs in a text if it is a part of the text. -/
theorem contains_iff_infix (h : phrase ≠ []) (text : List Char) :
    contains phrase text = true ↔ phrase <:+: text := by
  have hnone : NoneBegins phrase text [] ↔ ¬ phrase <:+: text := by
    induction text with
    | nil => simpa using h
    | cons c text ih =>
      rw [noneBegins_cons, ih, List.append_nil, List.infix_cons_iff, not_or]
  rw [← Bool.not_eq_false, contains_eq_false_iff h, hnone, Classical.not_not]

end SqlCompose.Text
