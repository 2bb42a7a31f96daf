import Mathlib.Data.List.TakeWhile
import SqlCompose.Predicate.Reading
import SqlCompose.Proofs.Predicate.Reader

/-!
# What may stand behind a condition

A text is a predicate if it is one condition and nothing stands behind it but semicolons. The reader
of predicates also passes texts that go on: it looks at orderings, pages and groupings only, so
windows, locks, fetched rows and the like are dropped, and so is all that follows the word `END`.
`readPredicate_eq_ok_iff` says which texts are passed, and what they start with behind the condition
if they are not bare.
-/

namespace SqlCompose.Predicate

open Reader

variable {d : Dialect} {lv : Level} {rest left : List Lexeme}

/-! ## The condition and what stands behind it -/

/-- The condition that a text starts with, and the lexemes behind it. -/
def conditionOf? (d : Dialect) (text : String) : Option (Term × List Lexeme) :=
  (lex? d text).bind (level d false conditionDepth).any

/-- Whether lexemes are semicolons only. -/
def IsBare (rest : List Lexeme) : Prop := ∀ l ∈ rest, l = .sign ";"

/-- The words that join selections. -/
def combiningWords : List String := ["UNION", "EXCEPT", "INTERSECT"]

/-- Whether lexemes behind a condition are read as clauses of which none orders, cuts or groups the
rows, and then end: in semicolons, or in the word `END` and anything behind it. -/
def Passes (d : Dialect) (rest : List Lexeme) : Prop :=
  ∃ inner outer between left, innerClauses d (level d false conditionDepth) rest =
      some (inner, between) ∧
    (∀ k ∈ combiningWords, startWith [k] between = false) ∧
    outerClauses d (level d false conditionDepth) between = some (outer, left) ∧
    hasKind .grouping inner = false ∧ hasKind .ordering outer = false ∧
    (IsBare left ∨ startWith ["END"] left = true)

/-- How clauses start that are dropped, and what ends a statement without a semicolon. -/
def droppedStarts : List (List String) :=
  [["CLUSTER", "BY"], ["DISTRIBUTE", "BY"], ["SORT", "BY"], ["WINDOW"], ["QUALIFY"],
    ["CONNECT", "BY"], ["START", "WITH"], ["LIMIT", "ALL"], ["FETCH"], ["FOR"], ["END"]]

/-! ## Clauses -/

/-- A clause of some kind is among two lists when it is in either. -/
theorem hasKind_append (kind : ClauseKind) (xs ys : List Clause) :
    hasKind kind (xs ++ ys) = (hasKind kind xs || hasKind kind ys) := List.any_append

/-- A clause is read where its words stand, and elsewhere nothing is. -/
theorem clause?_cases {kind : ClauseKind} {ks : List String} {p : Reader String}
    {clauses : List Clause} (h : clause? kind ks p rest = some (clauses, left)) :
    clauses = [] ∧ left = rest ∨ startWith ks rest = true ∧ hasKind kind clauses = true := by
  obtain ⟨text, between, hbehind, h⟩ := bind_eq_some.mp h
  obtain ⟨rfl, rfl⟩ := pure_eq_some.mp h
  rcases behind_cases hbehind with ⟨rfl, rfl⟩ | ⟨hstarts, s, -, rfl⟩
  · exact .inl ⟨rfl, rfl⟩
  · exact .inr ⟨hstarts, by simp [hasKind]⟩

/-- A clause is not read where its words do not come next. -/
theorem clause?_of_not_starts {kind : ClauseKind} {ks : List String} {p : Reader String}
    (h : startWith ks rest = false) : clause? kind ks p rest = some ([], rest) :=
  bind_eq_some.mpr ⟨none, rest, behind_of_not_starts h, rfl⟩

/-- Clauses of a kind that is looked for leave a trace; without a trace, they are not there. -/
theorem left_of_clause? {kind : ClauseKind} {ks : List String} {p : Reader String}
    {clauses : List Clause} (h : clause? kind ks p rest = some (clauses, left))
    (hkind : hasKind kind clauses = false) : clauses = [] ∧ left = rest := by
  rcases clause?_cases h with hidle | ⟨-, htrace⟩
  · exact hidle
  · rw [hkind] at htrace
    cases htrace

/-- Clauses about windows are not read unless one of their words comes next. -/
theorem windowClauses_cases {clauses : List Clause}
    (h : windowClauses d lv rest = some (clauses, left)) :
    clauses = [] ∧ left = rest ∨ startWith ["WINDOW"] rest = true ∨
      startWith ["QUALIFY"] rest = true := by
  obtain ⟨first, r₁, hfirst, hsecond⟩ := bind_eq_some.mp h
  obtain ⟨condition, r₂, hcondition, hthird⟩ := bind_eq_some.mp hsecond
  rcases clause?_cases hfirst with ⟨rfl, rfl⟩ | ⟨hstarts, -⟩
  case inr => exact .inr (.inl hstarts)
  rcases clause?_cases hcondition with ⟨rfl, rfl⟩ | ⟨hstarts, -⟩
  case inr => exact .inr (.inr hstarts)
  simp only [List.isEmpty_nil, Bool.not_true, Bool.and_false, Bool.false_eq_true,
    if_false] at hthird
  obtain ⟨last, r₃, hlast, hclauses⟩ := bind_eq_some.mp hthird
  obtain ⟨rfl, rfl⟩ := pure_eq_some.mp hlast
  obtain ⟨rfl, rfl⟩ := pure_eq_some.mp hclauses
  exact .inl ⟨rfl, rfl⟩

/-- Clauses about hierarchies are not read unless their words come next. -/
theorem hierarchyClause_cases {clauses : List Clause}
    (h : hierarchyClause lv rest = some (clauses, left)) :
    clauses = [] ∧ left = rest ∨ startWith ["CONNECT", "BY"] rest = true ∨
      startWith ["START", "WITH"] rest = true := by
  obtain ⟨connects, r₁, hconnects, h⟩ := bind_eq_some.mp h
  cases hconnect : startWith ["CONNECT", "BY"] rest with
  | true => exact .inr (.inl rfl)
  | false =>
    rw [keywords?_of_not_starts hconnect] at hconnects
    obtain ⟨rfl, rfl⟩ := Prod.mk.inj (Option.some.inj hconnects)
    obtain ⟨begins, r₂, hbegins, h⟩ := bind_eq_some.mp h
    cases hstart : startWith ["START", "WITH"] rest with
    | true => exact .inr (.inr rfl)
    | false =>
      rw [keywords?_of_not_starts hstart] at hbegins
      obtain ⟨rfl, rfl⟩ := Prod.mk.inj (Option.some.inj hbegins)
      obtain ⟨rfl, rfl⟩ := pure_eq_some.mp h
      exact .inl ⟨rfl, rfl⟩

/-- The clauses of a selection that are read without a grouping start with words that are
dropped, or there are none. -/
theorem innerClauses_cases {inner : List Clause}
    (h : innerClauses d lv rest = some (inner, left)) (hgroups : hasKind .grouping inner = false) :
    left = rest ∨ ∃ ks ∈ droppedStarts, startWith ks rest = true := by
  obtain ⟨group, r₁, hgroup, h⟩ := bind_eq_some.mp h
  obtain ⟨cluster, r₂, hcluster, h⟩ := bind_eq_some.mp h
  obtain ⟨distribute, r₃, hdistribute, h⟩ := bind_eq_some.mp h
  obtain ⟨sort, r₄, hsort, h⟩ := bind_eq_some.mp h
  obtain ⟨having, r₅, hhaving, h⟩ := bind_eq_some.mp h
  obtain ⟨windows, r₆, hwindows, h⟩ := bind_eq_some.mp h
  obtain ⟨hierarchy, r₇, hhierarchy, h⟩ : ∃ hierarchy r₇,
      (if hasTruthLiterals d then pure [] else hierarchyClause lv : Reader (List Clause)) r₆ =
        some (hierarchy, r₇) ∧
      (pure (group ++ cluster ++ distribute ++ sort ++ having ++ windows ++ hierarchy) :
        Reader (List Clause)) r₇ = some (inner, left) := by
    cases hliterals : hasTruthLiterals d <;> rw [hliterals] at h <;> exact bind_eq_some.mp h
  obtain ⟨rfl, rfl⟩ := pure_eq_some.mp h
  simp only [hasKind_append, Bool.or_eq_false_iff] at hgroups
  obtain ⟨⟨⟨⟨⟨⟨hnoGroup, -⟩, -⟩, -⟩, hnoHaving⟩, -⟩, -⟩ := hgroups
  obtain ⟨-, rfl⟩ := left_of_clause? hgroup hnoGroup
  rcases clause?_cases hcluster with ⟨-, rfl⟩ | ⟨hstarts, -⟩
  case inr => exact .inr ⟨_, by decide, hstarts⟩
  rcases clause?_cases hdistribute with ⟨-, rfl⟩ | ⟨hstarts, -⟩
  case inr => exact .inr ⟨_, by decide, hstarts⟩
  rcases clause?_cases hsort with ⟨-, rfl⟩ | ⟨hstarts, -⟩
  case inr => exact .inr ⟨_, by decide, hstarts⟩
  obtain ⟨-, rfl⟩ := left_of_clause? hhaving hnoHaving
  rcases windowClauses_cases hwindows with ⟨-, rfl⟩ | hstarts | hstarts
  case inr.inl => exact .inr ⟨_, by decide, hstarts⟩
  case inr.inr => exact .inr ⟨_, by decide, hstarts⟩
  split at hhierarchy
  · obtain ⟨-, rfl⟩ := pure_eq_some.mp hhierarchy
    exact .inl rfl
  · rcases hierarchyClause_cases hhierarchy with ⟨-, rfl⟩ | hstarts | hstarts
    · exact .inl rfl
    · exact .inr ⟨_, by decide, hstarts⟩
    · exact .inr ⟨_, by decide, hstarts⟩

/-! ### Orderings and pages -/

/-- An ordering either is read or leaves everything. -/
theorem orderingText_cases {text : Option String}
    (h : orderingText lv rest = some (text, left)) :
    text = none ∧ left = rest ∨ text.isSome = true := by
  obtain ⟨list, between, hlist, htext⟩ := bind_eq_some.mp h
  obtain ⟨rfl, rfl⟩ := pure_eq_some.mp htext
  rcases behind_cases hlist with ⟨rfl, rfl⟩ | ⟨-, texts, -, rfl⟩
  · exact .inl ⟨rfl, rfl⟩
  · exact .inr rfl

/-- Without a number of rows, there is no limit or the limit is all of them. -/
theorem left_of_limitText (h : limitText lv rest = some (none, left)) :
    left = rest ∨ startWith ["LIMIT", "ALL"] rest = true := by
  obtain ⟨limit, between, hlimit, hjoin⟩ := bind_eq_some.mp h
  obtain ⟨hjoin, rfl⟩ := pure_eq_some.mp hjoin
  rcases behind_cases hlimit with ⟨-, rfl⟩ | ⟨hstarts, amount, hamount, rfl⟩
  · exact .inl rfl
  · right
    obtain ⟨l, more, rfl, hkeyword⟩ := exists_cons_of_starts hstarts
    obtain ⟨all, r, hall, hread⟩ := bind_eq_some.mp hamount
    cases hmore : startWith ["ALL"] more with
    | true => simp [startWith, Lexeme.isKeyword, hkeyword] at hmore ⊢; exact hmore
    | false =>
      obtain ⟨rfl, rfl⟩ := Prod.mk.inj (Option.some.inj
        ((keywords?_of_not_starts hmore).symm.trans hall))
      obtain ⟨number, -, rfl⟩ := map_eq_some.mp hread
      cases hjoin

/-- Where no number of skipped rows is read, everything is left. -/
theorem left_of_offsetText (h : offsetText lv rest = some (none, left)) : left = rest := by
  rcases behind_cases h with ⟨-, rfl⟩ | ⟨-, text, -, hnone⟩
  · rfl
  · cases hnone

/-- A page with these parts; one engine may give the number of rows behind a comma. -/
def Page.joined (d : Dialect) (lv : Level) (limit offset : Option String) : Reader Page := do
  match limit, offset with
  | some first, none =>
    if ← onlyIf (d == .mySql) (sign? ",") then pure ⟨some (← lv.text), some first⟩
    else pure ⟨limit, none⟩
  | _, _ => pure ⟨limit, offset⟩

/-- The two parts of a page are read one after the other, each if the page does not have it. -/
theorem further_eq (page : Page) : page.further d lv =
    ((if page.limit.isNone then limitText lv else pure page.limit) >>= fun limit =>
      (if page.offset.isNone then offsetText lv else pure page.offset) >>= fun offset =>
        Page.joined d lv limit offset) := by
  unfold Page.further Page.joined
  cases page.limit.isNone <;> cases page.offset.isNone <;> rfl

/-- What goes on behind a comma makes a page with a number of rows, and otherwise the page stays as
it is. -/
theorem joined_cases {limit offset : Option String} {page : Page}
    (h : Page.joined d lv limit offset rest = some (page, left)) :
    page.limit.isSome = true ∨ page = ⟨limit, offset⟩ ∧ left = rest := by
  match limit, offset with
  | some first, none =>
    left
    obtain ⟨comma, r₃, -, hpage⟩ := bind_eq_some.mp h
    cases comma with
    | true =>
      obtain ⟨text, r₄, -, hread⟩ := bind_eq_some.mp hpage
      obtain ⟨rfl, -⟩ := pure_eq_some.mp hread
      rfl
    | false =>
      obtain ⟨rfl, -⟩ := pure_eq_some.mp hpage
      rfl
  | some first, some skipped =>
    obtain ⟨rfl, -⟩ := pure_eq_some.mp h
    exact .inl rfl
  | none, offset =>
    obtain ⟨rfl, rfl⟩ := pure_eq_some.mp h
    exact .inr ⟨rfl, rfl⟩

/-- A page that has no number at its end had none before, and nothing but a limit to all rows has
been read. -/
theorem further_cases {page page' : Page} (h : page.further d lv rest = some (page', left))
    (hlimit : page'.limit = none) (hoffset : page'.offset = none) :
    page = ⟨none, none⟩ ∧ (left = rest ∨ startWith ["LIMIT", "ALL"] rest = true) := by
  rw [further_eq] at h
  obtain ⟨limit, r₁, hfirst, h₁⟩ := bind_eq_some.mp h
  obtain ⟨offset, r₂, hsecond, h₂⟩ := bind_eq_some.mp h₁
  rcases joined_cases h₂ with hsome | ⟨rfl, rfl⟩
  · rw [hlimit] at hsome
    cases hsome
  obtain ⟨before, skipped⟩ := page
  simp only at hlimit hoffset
  subst hlimit hoffset
  cases before with
  | some amount => cases (pure_eq_some.mp hfirst).1
  | none =>
    cases skipped with
    | some amount => cases (pure_eq_some.mp hsecond).1
    | none =>
      have hr := left_of_offsetText hsecond
      subst hr
      exact ⟨rfl, left_of_limitText hfirst⟩

/-- Where no ordering and no number of rows is read, everything is left, or a limit stood there that
sets none. -/
theorem pageClauses_cases {clauses : List Clause}
    (h : pageClauses d lv rest = some (clauses, left))
    (hpages : hasKind .ordering clauses = false) :
    left = rest ∨ startWith ["LIMIT", "ALL"] rest = true := by
  obtain ⟨first, r₁, hfirst, hmap⟩ := bind_eq_some.mp h
  obtain ⟨page, hpage, rfl⟩ := map_eq_some.mp hmap
  obtain ⟨limit, offset⟩ := page
  cases limit with
  | some amount => simp [Page.clauses, hasKind] at hpages
  | none =>
    cases offset with
    | some amount => simp [Page.clauses, hasKind] at hpages
    | none =>
      obtain ⟨rfl, hnext⟩ := further_cases hpage rfl rfl
      rcases further_cases hfirst rfl rfl with ⟨-, rfl | hstarts⟩
      · exact hnext
      · exact .inr hstarts

/-! ### Locks and documents -/

/-- Clauses about locks are not read unless their word comes next. -/
theorem rowClauses_of_not_starts (h : startWith ["FOR"] rest = false) :
    rowClauses rest = some ([], rest) := by
  refine bind_eq_some.mpr ⟨[], rest, many_of_none ?_, ?_⟩
  · refine bind_eq_some.mpr ⟨_, rest, rfl, ?_⟩
    split
    · rfl
    · exact behind_of_not_starts h
  · exact bind_eq_some.mpr ⟨[], rest, clause?_of_not_starts h, rfl⟩

/-- The clauses of a query that are read without an ordering or a page start with words that are
dropped, or there are none. -/
theorem outerClauses_cases {outer : List Clause}
    (h : outerClauses d lv rest = some (outer, left)) (hpages : hasKind .ordering outer = false) :
    left = rest ∨ ∃ ks ∈ droppedStarts, startWith ks rest = true := by
  obtain ⟨order, r₁, horder, h₁⟩ := bind_eq_some.mp h
  obtain ⟨pages, r₂, hpage, h₂⟩ := bind_eq_some.mp h₁
  obtain ⟨fetch, r₃, hfetch, h₃⟩ := bind_eq_some.mp h₂
  obtain ⟨rows, r₄, hrows, h₄⟩ := bind_eq_some.mp h₃
  obtain ⟨rfl, rfl⟩ := pure_eq_some.mp h₄
  simp only [hasKind_append, Bool.or_eq_false_iff] at hpages
  obtain ⟨⟨⟨hnoOrder, hnoPages⟩, -⟩, -⟩ := hpages
  rcases orderingText_cases horder with ⟨rfl, rfl⟩ | hsome
  case inr =>
    obtain ⟨text, rfl⟩ := Option.isSome_iff_exists.mp hsome
    simp [hasKind] at hnoOrder
  rcases pageClauses_cases hpage hnoPages with rfl | hstarts
  case inr => exact .inr ⟨_, by decide, hstarts⟩
  rcases clause?_cases hfetch with ⟨-, rfl⟩ | ⟨hstarts, -⟩
  case inr => exact .inr ⟨_, by decide, hstarts⟩
  cases hfor : startWith ["FOR"] r₃ with
  | true => exact .inr ⟨_, by decide, hfor⟩
  | false =>
    rw [rowClauses_of_not_starts hfor] at hrows
    cases hrows
    exact .inl rfl

/-- What passes is bare, or starts with words that are dropped. -/
theorem Passes.cases (h : Passes d rest) :
    IsBare rest ∨ ∃ ks ∈ droppedStarts, startWith ks rest = true := by
  obtain ⟨inner, outer, between, left, hinner, -, houter, hgroups, hpages, hends⟩ := h
  rcases innerClauses_cases hinner hgroups with rfl | hdropped
  case inr => exact .inr hdropped
  rcases outerClauses_cases houter hpages with rfl | hdropped
  case inr => exact .inr hdropped
  rcases hends with hbare | hend
  · exact .inl hbare
  · exact .inr ⟨_, by decide, hend⟩

/-! ## Further statements -/

/-- Semicolons between statements. -/
theorem repeatWith_semicolons (rest : List Lexeme) (fuel : Nat) (h : rest.length ≤ fuel) :
    repeatWith (do if ← sign? ";" then pure (some ()) else pure none) fuel rest =
      some ((rest.takeWhile (· == .sign ";")).map fun _ => (),
        rest.dropWhile (· == .sign ";")) := by
  induction rest generalizing fuel with
  | nil => cases fuel <;> rfl
  | cons l rest ih =>
    obtain ⟨fuel, rfl⟩ : ∃ n, fuel = n + 1 := ⟨fuel - 1, by simp at h; omega⟩
    have hfuel : rest.length ≤ fuel := by simpa using h
    cases hl : l == Lexeme.sign ";" with
    | true =>
      refine bind_eq_some.mpr ⟨some (), rest, ?_, ?_⟩
      · exact bind_eq_some.mpr ⟨true, rest, by simp [sign?, take, hl], rfl⟩
      · refine bind_eq_some.mpr ⟨_, _, ih fuel hfuel, ?_⟩
        simp only [List.takeWhile_cons, List.dropWhile_cons, hl, if_true, List.map_cons]
        rfl
    | false =>
      refine bind_eq_some.mpr ⟨none, l :: rest, ?_, ?_⟩
      · exact bind_eq_some.mpr ⟨false, l :: rest, by simp [sign?, take, hl], rfl⟩
      · simp only [List.takeWhile_cons, List.dropWhile_cons, hl, Bool.false_eq_true, if_false]
        rfl

/-- Lexemes are semicolons only when none is left behind the semicolons in front. -/
theorem isBare_iff : IsBare rest ↔ rest.dropWhile (· == .sign ";") = [] := by
  simp [IsBare, List.dropWhile_eq_nil_iff]

/-- What follows the semicolons behind a statement, of which there are so many. -/
def afterSemicolons (d : Dialect) (fuel : Nat) (semicolons : List Unit) : Reader Nat := do
  if (← peek 0).isNone then pure 0
  else if semicolons.isEmpty then if ← sees ["END"] then pure 0 else refuse
  else
    furtherStatement d (level d false (conditionDepth + 1))
    pure ((← furtherStatements d fuel) + 1)

/-- Statements behind a first one stand behind semicolons. -/
theorem furtherStatements_succ (d : Dialect) (fuel : Nat) (rest : List Lexeme) :
    furtherStatements d (fuel + 1) rest =
      afterSemicolons d fuel ((rest.takeWhile (· == .sign ";")).map fun _ => ())
        (rest.dropWhile (· == .sign ";")) := by
  have hsemicolons := repeatWith_semicolons rest rest.length le_rfl
  rw [furtherStatements]
  show (many _ rest).bind _ = _
  unfold many
  rw [hsemicolons]
  rfl

/-- Behind semicolons a lexeme starts another statement. -/
theorem afterSemicolons_cons {fuel : Nat} {u : Unit} {us : List Unit} {l : Lexeme} :
    afterSemicolons d fuel (u :: us) (l :: rest) =
      (furtherStatement d (level d false (conditionDepth + 1)) >>= fun _ =>
        furtherStatements d fuel >>= fun count => pure (count + 1) : Reader Nat) (l :: rest) :=
  rfl

/-- Without a semicolon, only the word `END` may follow. -/
theorem afterSemicolons_nil {fuel : Nat} {l : Lexeme} :
    afterSemicolons d fuel [] (l :: rest) =
      if startWith ["END"] (l :: rest) then some (0, l :: rest) else none := by
  have hread : afterSemicolons d fuel [] (l :: rest) =
      (sees ["END"] >>= fun ended => if ended then pure 0 else refuse : Reader Nat)
        (l :: rest) := rfl
  rw [hread, bind_apply, sees_singleton]
  cases startWith ["END"] (l :: rest) <;> rfl

/-- No statement follows if and only if the lexemes are bare or the word `END` comes first. -/
theorem furtherStatements_eq_zero {fuel : Nat} :
    (∃ left, furtherStatements d (fuel + 1) rest = some (0, left)) ↔
      IsBare rest ∨ startWith ["END"] rest = true := by
  rw [furtherStatements_succ, isBare_iff]
  cases rest with
  | nil => exact ⟨fun _ => .inl rfl, fun _ => ⟨[], rfl⟩⟩
  | cons l more =>
    cases hl : l == Lexeme.sign ";" with
    | false =>
      simp only [List.takeWhile_cons, List.dropWhile_cons, hl, Bool.false_eq_true, if_false,
        List.map_nil, reduceCtorEq, false_or]
      rw [afterSemicolons_nil]
      cases startWith ["END"] (l :: more) with
      | true => exact iff_of_true ⟨_, rfl⟩ rfl
      | false => exact iff_of_false (fun ⟨left, h⟩ => by cases h) Bool.false_ne_true
    | true =>
      have hend : startWith ["END"] (l :: more) = false := by
        rw [eq_of_beq hl]
        rfl
      simp only [List.takeWhile_cons, List.dropWhile_cons, hl, if_true, List.map_cons, hend,
        Bool.false_eq_true, or_false]
      cases hafter : more.dropWhile (· == Lexeme.sign ";") with
      | nil => exact ⟨fun _ => rfl, fun _ => ⟨[], rfl⟩⟩
      | cons next others =>
        refine iff_of_false (fun ⟨left, h⟩ => ?_) (List.cons_ne_nil _ _)
        rw [afterSemicolons_cons] at h
        obtain ⟨-, r₁, -, h⟩ := bind_eq_some.mp h
        obtain ⟨count, r₂, -, h⟩ := bind_eq_some.mp h
        cases (pure_eq_some.mp h).1

end SqlCompose.Predicate
