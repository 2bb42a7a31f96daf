import SqlCompose.Proofs.Query.Dialects
import SqlCompose.Proofs.Query.Independence
import SqlCompose.Proofs.Text.Numeral

/-!
# Conditions behind bound values

A predicate can be compiled behind values that are bound already, or as the condition of a query.
The two walks go through the same drafts, but for the numbers of the parameters
(`Query.visit_behind`). The null tests are put into texts then, in which these numbers have different
lengths; still the two conditions are the same up to the numbers in their placeholders
(`planFilter_alongside_planQuery`).

That the null tests do nothing else to the one condition than to the other is seen in the dialect
with one mark for all parameters: it writes both conditions alike, and what it reads there is what
every dialect reads.
-/

namespace SqlCompose

open Text (decimal ofDigits ofDigits_decimal)

/-! ## Placeholders with raised numbers -/

namespace Dialect

/-- A placeholder with its number raised, if it has one. -/
def raiseMark (d : Dialect) (n : Nat) (mark : List Char) : List Char :=
  match d.placeholderStyle with
  | .positional _ => mark
  | .named start | .numbered start =>
    start.toList ++ decimal (ofDigits (mark.drop start.length) + n)

/-- The text of a segment, a placeholder with its number raised. -/
def raiseSegment (d : Dialect) (n : Nat) : Segment → List Char
  | .ident name => d.quoteChars name
  | .param mark => d.raiseMark n mark
  | .char c => [c]

/-- A text with the numbers of its placeholders raised; what looks like a placeholder within an
identifier is none. -/
def renumber (d : Dialect) (n : Nat) (text : String) : String :=
  String.ofList ((d.segments text).flatMap (d.raiseSegment n))

/-- Raising the number of a placeholder gives the placeholder of the raised index. -/
theorem raiseMark_placeholder (d : Dialect) (n index : Nat) :
    d.raiseMark n (d.placeholder index).toList = (d.placeholder (index + n)).toList := by
  have hnumeral (start : String) (k : Nat) :
      (start ++ toString k).toList.drop start.length = decimal k := by
    rw [String.toList_append, ← String.length_toList, List.drop_left, Nat.toString_eq_repr,
      Nat.toList_repr, decimal]
  have hraised (start : String) (k : Nat) :
      start.toList ++ decimal k = (start ++ toString k).toList := by
    rw [String.toList_append, Nat.toString_eq_repr, Nat.toList_repr, decimal]
  cases d with
  | mySql => rfl
  | sqlServer | sqlServerLegacy =>
    show "@p".toList ++ decimal (ofDigits (("@p" ++ toString index).toList.drop "@p".length) + n) = _
    rw [hnumeral, ofDigits_decimal, hraised]
    rfl
  | postgres =>
    show "$".toList ++ decimal (ofDigits (("$" ++ toString (index + 1)).toList.drop "$".length) + n) = _
    rw [hnumeral, ofDigits_decimal, hraised, Nat.add_right_comm]
    rfl

end Dialect

/-- A symbol with the index of a parameter raised. -/
def Symbol.raise (n : Nat) : Symbol → Symbol
  | .param index => .param (index + n)
  | symbol => symbol

/-- Raising by zero changes no symbol. -/
theorem Symbol.raise_zero : Symbol.raise 0 = id := by
  funext symbol
  cases symbol <;> rfl

namespace Dialect

variable (d : Dialect)

/-- The segments in front of which a truth value is read begin with its text. -/
theorem eq_append_of_truthAt? {b : Bool} {segments : List Segment}
    (h : d.truthAt? segments = some b) :
    ∃ rest, segments = (d.truth b).toList.map .char ++ rest := by
  have hbegins := List.find?_some h
  exact (List.isPrefixOf_iff_prefix.mp hbegins).imp fun _ => Eq.symm

/-- Raising the numbers in a text comes to raising the indices of what it is read as. The
characters of a truth value are passed over at once. -/
theorem flatMap_raiseSegment (n : Nat) {next : Nat} {segments : List Segment}
    {symbols : List Symbol} (h : d.symbolsFrom 0 next segments = some symbols) :
    segments.flatMap (d.raiseSegment n) = (symbols.map (Symbol.raise n)).flatMap d.spellSymbol := by
  induction hn : segments.length using Nat.strongRecOn generalizing segments next symbols with
  | ind k ih =>
    subst hn
    cases segments with
    | nil => cases h; rfl
    | cons segment rest =>
      cases segment with
      | ident name =>
        obtain ⟨tail, htail, rfl⟩ := Option.map_eq_some_iff.mp h
        rw [List.flatMap_cons, ih rest.length (by simp) htail rfl]
        rfl
      | param mark =>
        rw [symbolsFrom] at h
        split at h
        next hmark =>
          obtain ⟨tail, htail, rfl⟩ := Option.map_eq_some_iff.mp h
          rw [List.flatMap_cons, ih rest.length (by simp) htail rfl, raiseSegment, hmark,
            raiseMark_placeholder]
          rfl
        next => cases h
      | char c =>
        cases htruth : d.truthAt? (.char c :: rest) with
        | none =>
          rw [symbolsFrom, htruth] at h
          obtain ⟨tail, htail, rfl⟩ := Option.map_eq_some_iff.mp h
          rw [List.flatMap_cons, ih rest.length (by simp) htail rfl]
          rfl
        | some b =>
          obtain ⟨behind, hbehind⟩ := d.eq_append_of_truthAt? htruth
          have hshorter : behind.length < (Segment.char c :: rest).length := by
            have hpos : 0 < (d.truth b).toList.length := by cases d <;> cases b <;> decide
            rw [hbehind, List.length_append, List.length_map]
            omega
          rw [hbehind, symbolsFrom_truth] at h
          obtain ⟨tail, htail, rfl⟩ := Option.map_eq_some_iff.mp h
          rw [hbehind, List.flatMap_append, ih behind.length hshorter htail rfl, List.flatMap_map]
          show (d.truth b).toList.flatMap (fun c => [c]) ++ _ =
            (d.truth b).toList ++ (tail.map (Symbol.raise n)).flatMap d.spellSymbol
          rw [List.flatMap_singleton']

/-- A text that is spelled by its symbols has its numbers raised by raising the indices of the
symbols. -/
theorem renumber_eq (n : Nat) {next : Nat} {text : String} {symbols : List Symbol}
    (h : d.symbols next text = some symbols) :
    d.renumber n text =
      String.ofList ((symbols.map (Symbol.raise n)).flatMap d.spellSymbol) :=
  congrArg String.ofList (d.flatMap_raiseSegment n h)

/-- With one mark for all parameters, a text is read alike wherever its parameters begin. -/
theorem symbolsFrom_mySql (n skip next : Nat) (segments : List Segment) :
    Dialect.mySql.symbolsFrom skip (next + n) segments =
      (Dialect.mySql.symbolsFrom skip next segments).map (List.map (Symbol.raise n)) := by
  induction segments generalizing skip next with
  | nil => cases skip <;> rfl
  | cons segment rest ih =>
    cases skip with
    | succ skip => exact ih skip next
    | zero =>
      cases segment with
      | ident name =>
        rw [symbolsFrom, symbolsFrom, ih, Option.map_map, Option.map_map]
        rfl
      | param mark =>
        rw [symbolsFrom, symbolsFrom, Nat.add_right_comm, ih]
        show (if mark = (Dialect.mySql.placeholder next).toList then _ else _) = _
        split
        · rw [Option.map_map, Option.map_map]
          rfl
        · rfl
      | char c =>
        rw [symbolsFrom, symbolsFrom]
        split
        all_goals
          rw [ih, Option.map_map, Option.map_map]
          rfl

/-- Where placeholders have no numbers, the symbols are counted from wherever the count begins. -/
theorem symbols_mySql (n : Nat) (text : String) :
    Dialect.mySql.symbols n text =
      (Dialect.mySql.symbols 0 text).map (List.map (Symbol.raise n)) := by
  have hsymbols := symbolsFrom_mySql n 0 0 (Dialect.mySql.segments text)
  rwa [Nat.zero_add] at hsymbols

end Dialect

/-! ## Drafts behind bound values -/

/-- A token with the index of a parameter raised. -/
def Token.raise (n : Nat) : Token → Token
  | .param index => .param (index + n)
  | t => t

/-- A token that is no parameter has nothing to raise. -/
theorem Token.raise_of_index?_eq_none (n : Nat) {t : Token} (h : t.index? = none) :
    t.raise n = t := by
  cases t with
  | param => cases h
  | _ => rfl

/-- The dialect with one mark for all parameters writes raised parameters alike. -/
theorem Dialect.write_raise_mySql (n : Nat) (tokens : List Token) :
    Dialect.mySql.write (tokens.map (Token.raise n)) = Dialect.mySql.write tokens := by
  rw [Dialect.write, Dialect.write, List.map_map]
  congr 2
  funext t
  cases t <;> rfl

namespace Draft

/-- A draft behind values that are bound already. -/
def behind (bound : List Value) (d : Draft) : Draft :=
  { d with tokens := d.tokens.map (Token.raise bound.length), values := bound ++ d.values }

variable (bound : List Value)

/-- The empty draft behind some values is the one that begins behind them. -/
theorem behind_empty : Draft.empty.behind bound = Draft.ofBound bound := by
  simp [behind, empty, ofBound]

/-- Putting values in front passes over everything that is written. -/
theorem commutes_behind : Commutes (behind bound) where
  nested _ := rfl
  setNested _ _ := rfl
  put d t ht := by simp [behind, Draft.put, Token.raise_of_index?_eq_none _ ht]
  bind d v := by simp [behind, Draft.bind, Draft.put, Token.raise, Nat.add_comm]

/-- Putting values in front passes over the steps of a query too. -/
theorem commutesWithSteps_behind (e : Entity) : CommutesWithSteps e (behind bound) where
  isEmpty d := by simp [behind]
  openGroup d := by
    unfold behind Draft.openGroup
    cases d.grouped <;> simp [Token.raise]
  afterFilter op d := by cases op <;> rfl
  applyStep op arg d := by
    cases op with
    | take | skip =>
      simp only [Query.applyStep]
      split <;> rfl
    | orderBy | orderByDescending | select =>
      cases arg with
      | none => rfl
      | some selector => simp only [Query.applyStep, map_bind]; rfl
    | _ => rfl

end Draft

namespace Query

variable {e : Entity}

/-- A walk behind bound values ends as the walk behind none, but for the numbers of the
parameters. -/
theorem visit_behind (bound : List Value) (p : Bool) (x : Expr) (d : Draft) :
    visit e p x (d.behind bound) = (visit e p x d).map (Draft.behind bound) :=
  visit_commutes (Draft.commutes_behind bound) p (.inr (Draft.commutesWithSteps_behind bound e)) d

/-- The condition of a walk behind bound values is that of the walk behind none, with the numbers of
its placeholders raised. -/
theorem finish_behind (bound : List Value) {p : Bool} {x : Expr} {draft : Draft} (d : Dialect)
    (h : visit e p x (Draft.ofBound []) = .ok draft) :
    NullTest.finish (d.write (draft.behind bound).tokens) =
        d.renumber bound.length (NullTest.finish (d.write draft.tokens)) ∧
      d.renumber 0 (NullTest.finish (d.write draft.tokens)) =
        NullTest.finish (d.write draft.tokens) := by
  have hbehind : visit e p x (Draft.ofBound bound) = .ok (draft.behind bound) := by
    rw [← Draft.behind_empty, visit_behind, Draft.empty, h]
    rfl
  obtain ⟨symbols, hsymbols⟩ := exists_spelling_visit h
  rw [List.length_nil] at hsymbols
  obtain ⟨raised, hraised⟩ := exists_spelling_visit hbehind
  have hsame : raised = symbols.map (Symbol.raise bound.length) := by
    have hread := (hraised .mySql).1
    rw [Draft.behind, Dialect.write_raise_mySql, Dialect.symbols_mySql,
      (hsymbols .mySql).1, Option.map_some] at hread
    exact (Option.some.inj hread).symm
  constructor
  · rw [d.renumber_eq _ (hsymbols d).1, ← hsame, ← (hraised d).2, String.ofList_toList]
  · rw [d.renumber_eq _ (hsymbols d).1, Symbol.raise_zero, List.map_id, ← (hsymbols d).2,
      String.ofList_toList]

end Query

/-! ## Plans -/

/-- Behind bound values, a predicate is refused with the error of the query that it is the condition
of; or it binds these values and then those of the query, and its condition is that of the query with
the number of every placeholder raised by the number of the bound values. All else in a condition is
left alone: raising the numbers by nothing changes nothing. -/
theorem planFilter_alongside_planQuery (d : Dialect) (e : Entity) (predicate : Expr)
    (bound : List Value) :
    (∃ fault, d.planFilter e predicate bound = .error fault ∧
        d.planQuery e (.call .filter [.source, predicate]) = .error fault) ∨
      ∃ t q, d.planFilter e predicate bound = .ok t ∧
        d.planQuery e (.call .filter [.source, predicate]) = .ok q ∧
        t.params = bound.map d.param ++ q.params ∧
        t.fragment = d.renumber bound.length q.fragment ∧
        d.renumber 0 q.fragment = q.fragment := by
  have hquery : Query.visit e false (.call .filter [.source, predicate]) (Draft.ofBound []) =
      (Query.visit e true predicate Draft.empty).map (·.setNested true) :=
    Query.visit_selection predicate
  have hfilter : Query.visit e true predicate (Draft.ofBound bound) =
      (Query.visit e true predicate Draft.empty).map (Draft.behind bound) := by
    rw [← Draft.behind_empty, Query.visit_behind]
  cases h : Query.visit e true predicate Draft.empty with
  | error fault =>
    rw [h] at hquery hfilter
    refine .inl ⟨fault, ?_, ?_⟩
    · rw [Dialect.planFilter, Query.draftFilter, hfilter]
      rfl
    · rw [Dialect.planQuery, Query.draft, Draft.empty, hquery]
      rfl
  | ok draft =>
    rw [h] at hquery hfilter
    obtain ⟨hfinish, hzero⟩ := Query.finish_behind bound d h
    refine .inr ⟨_, _, planFilter_eq_ok.mpr ⟨_, hfilter, rfl⟩, planQuery_eq_ok.mpr ⟨_, hquery, rfl⟩,
      ?_, hfinish, hzero⟩
    exact List.map_append

end SqlCompose
