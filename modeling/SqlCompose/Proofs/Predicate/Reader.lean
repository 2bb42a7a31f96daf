import SqlCompose.Predicate.Statement

/-!
# What readers leave

A reader that asks for words and does not find them leaves all lexemes where they are. So a clause
that is read begins with its words, and what is left without any clause is what was there before.
-/

namespace SqlCompose.Predicate

namespace Reader

variable {α β : Type} {rest left : List Lexeme}

/-! ## Readers one after the other -/

/-- Two readers one after the other, on some lexemes. -/
theorem bind_apply {p : Reader α} {f : α → Reader β} :
    (p >>= f) rest = (p rest).bind fun s => f s.1 s.2 := rfl

/-- Two readers one after the other read what the first reads and then the second. -/
theorem bind_eq_some {p : Reader α} {f : α → Reader β} {b : β} :
    (p >>= f) rest = some (b, left) ↔
      ∃ a between, p rest = some (a, between) ∧ f a between = some (b, left) := by
  simp [bind_apply, Option.bind_eq_some_iff]

/-- A reader that reads nothing leaves everything. -/
theorem pure_eq_some {a b : α} :
    (pure a : Reader α) rest = some (b, left) ↔ a = b ∧ rest = left := by
  show some (a, rest) = some (b, left) ↔ _
  simp

/-- Changing what has been read leaves the same lexemes. -/
theorem map_eq_some {p : Reader α} {f : α → β} {b : β} :
    (f <$> p) rest = some (b, left) ↔ ∃ a, p rest = some (a, left) ∧ f a = b := by
  show ((p rest).bind fun s => some (f s.1, s.2)) = some (b, left) ↔ _
  simp only [Option.bind_eq_some_iff, Option.some.injEq, Prod.mk.injEq, Prod.exists]
  constructor
  · rintro ⟨a, between, hp, rfl, rfl⟩
    exact ⟨a, hp, rfl⟩
  · rintro ⟨a, hp, rfl⟩
    exact ⟨a, left, hp, rfl, rfl⟩

/-! ## Words that may follow -/

/-- Words that come next are taken. -/
theorem keywords?_of_starts {ks : List String} (h : startWith ks rest = true) :
    keywords? ks rest = some (true, rest.drop ks.length) := by
  simp [keywords?, h]

/-- Words that do not come next are not missed. -/
theorem keywords?_of_not_starts {ks : List String} (h : startWith ks rest = false) :
    keywords? ks rest = some (false, rest) := by
  simp [keywords?, h]

/-- What stands behind words is read if the words follow, and otherwise nothing is. -/
theorem behind_cases {ks : List String} {p : Reader α} {a : Option α}
    (h : behind ks p rest = some (a, left)) :
    a = none ∧ left = rest ∨
      startWith ks rest = true ∧ ∃ b, p (rest.drop ks.length) = some (b, left) ∧ a = some b := by
  obtain ⟨found, between, hfound, h⟩ := bind_eq_some.mp h
  cases hstarts : startWith ks rest with
  | false =>
    obtain ⟨rfl, rfl⟩ := Prod.mk.inj (Option.some.inj
      ((keywords?_of_not_starts hstarts).symm.trans hfound))
    obtain ⟨rfl, rfl⟩ := pure_eq_some.mp h
    exact .inl ⟨rfl, rfl⟩
  | true =>
    obtain ⟨rfl, rfl⟩ := Prod.mk.inj (Option.some.inj
      ((keywords?_of_starts hstarts).symm.trans hfound))
    obtain ⟨b, hp, rfl⟩ := map_eq_some.mp h
    exact .inr ⟨rfl, b, hp, rfl⟩

/-- What stands behind some words is not read where they do not come next. -/
theorem behind_of_not_starts {ks : List String} {p : Reader α} (h : startWith ks rest = false) :
    behind ks p rest = some (none, rest) := by
  refine bind_eq_some.mpr ⟨false, rest, keywords?_of_not_starts h, ?_⟩
  exact pure_eq_some.mpr ⟨rfl, rfl⟩

/-- A list that starts with words starts with the first of them. -/
theorem exists_cons_of_starts {k : String} {ks : List String}
    (h : startWith (k :: ks) rest = true) :
    ∃ l more, rest = l :: more ∧ l.keyword? = some k := by
  cases rest with
  | nil => cases h
  | cons l more =>
    rw [startWith, Bool.and_eq_true] at h
    exact ⟨l, more, rfl, eq_of_beq h.1⟩

/-- A word is read as one of several if it stands there and is one of them. -/
theorem oneOf_eq_some {ks : List String} {k : String} :
    oneOf ks rest = some (k, left) ↔
      k ∈ ks ∧ ∃ l, rest = l :: left ∧ l.keyword? = some k := by
  cases rest with
  | nil => exact iff_of_false nofun (fun ⟨_, l, h, _⟩ => nomatch h)
  | cons l more =>
    have hnext : next (l :: more) = some (l, more) := rfl
    rw [oneOf, bind_apply, hnext, Option.bind_some]
    dsimp only
    cases hword : l.keyword? with
    | none => simp [hword, refuse]
    | some word =>
      by_cases hmem : word ∈ ks
      · simp only [List.contains_eq_mem, hmem, decide_true, if_true, pure_eq_some, List.cons.injEq]
        constructor
        · rintro ⟨rfl, rfl⟩
          exact ⟨hmem, l, ⟨rfl, rfl⟩, hword⟩
        · rintro ⟨-, l', ⟨rfl, rfl⟩, hk⟩
          exact ⟨Option.some.inj (hword.symm.trans hk), rfl⟩
      · simp only [List.contains_eq_mem, hmem, decide_false, Bool.false_eq_true, if_false]
        refine iff_of_false (by simp [refuse]) ?_
        rintro ⟨hk, l', hcons, hword'⟩
        obtain ⟨rfl, rfl⟩ := List.cons.inj hcons
        exact hmem (Option.some.inj (hword.symm.trans hword') ▸ hk)

/-- Where no word is read as one of several, none of them stands there. -/
theorem oneOf?_eq_none {ks : List String} :
    oneOf? ks rest = some (none, left) ↔
      left = rest ∧ ∀ k ∈ ks, startWith [k] rest = false := by
  unfold oneOf? attempt
  cases hone : oneOf ks rest with
  | some s =>
    obtain ⟨hmem, l, rfl, hword⟩ := oneOf_eq_some.mp hone
    refine iff_of_false nofun fun hnone => ?_
    have hstarts : startWith [s.1] (l :: s.2) = true := by
      simp [startWith, Lexeme.isKeyword, hword]
    rw [hnone.2 _ hmem] at hstarts
    cases hstarts
  | none =>
    have hnone : ∀ k ∈ ks, startWith [k] rest = false := by
      intro k hmem
      cases hstarts : startWith [k] rest with
      | false => rfl
      | true =>
        obtain ⟨l, more, rfl, hword⟩ := exists_cons_of_starts hstarts
        cases hone.symm.trans (oneOf_eq_some.mpr ⟨hmem, l, rfl, hword⟩)
    simp only [Option.some.injEq, Prod.mk.injEq, true_and]
    exact ⟨fun h => ⟨h.symm, hnone⟩, fun h => h.1.symm⟩

/-- Looking for one word takes nothing. -/
theorem sees_singleton (k : String) (rest : List Lexeme) :
    sees [k] rest = some (startWith [k] rest, rest) := by
  cases rest with
  | nil => rfl
  | cons l more =>
    show some (l.keyword?.any [k].contains, l :: more) = _
    cases hword : l.keyword? with
    | none => simp [startWith, Lexeme.isKeyword, hword]
    | some word =>
      have hcontains : [k].contains word = (some word == some k) := by
        rw [Bool.eq_iff_iff]
        simp
      simpa [startWith, Lexeme.isKeyword, hword] using hcontains

/-! ## Repetitions -/

/-- Where a reader gives nothing, it is not repeated. -/
theorem many_of_none {p : Reader (Option α)} (h : p rest = some (none, rest)) :
    many p rest = some ([], rest) := by
  unfold many
  cases rest.length with
  | zero => rfl
  | succ fuel => exact bind_eq_some.mpr ⟨none, rest, h, rfl⟩

end Reader

end SqlCompose.Predicate
