import SqlCompose.Proofs.Condition.Drafting
import SqlCompose.Proofs.Formula.Condition

/-!
# Several layouts read back

Where several layouts have to hold, each stands in a group of its own. A group that holds one
inequality with null and nothing else is settled and then begins with a negation; it is read all the
same (`Sql.Layout.exists_settledAs`). So the text of several layouts is read as a formula, and the
formula is a condition if and only if each of the layouts is one (`Sql.Layout.exists_readFormula`).
-/

namespace SqlCompose.Sql

variable {d : Dialect}

/-! ## Groups with one inequality -/

namespace Scan

/-- In front of a test for presence, a formula has been read. Where it stands, a test for absence
can be read as well. -/
theorem run_isNotNull {s s' : Scan} {xs : List Lexeme}
    (h : s.run (xs ++ [.is, .not, .null]) = some s') :
    ∃ outer n x, s' = ⟨outer, n, .done (.isNull true x)⟩ ∧ ∀ rest,
      s.run (xs ++ .is :: .null :: rest) = run ⟨outer, n, .done (.isNull false x)⟩ rest := by
  obtain ⟨⟨outer, n, phase⟩, hxs, hend⟩ : ∃ s₁, s.run xs = some s₁ ∧
      run s₁ [.is, .not, .null] = some s' := by
    rwa [run, List.foldlM_append, Option.bind_eq_bind, Option.bind_eq_some_iff] at h
  obtain ⟨x, rfl⟩ : ∃ x, phase = .done x := by
    cases phase with
    | done x => exact ⟨x, rfl⟩
    | tested x negated => cases negated <;> cases hend
    | _ => cases hend
  refine ⟨outer, n, x, (Option.some.inj hend).symm, fun rest => ?_⟩
  rw [run, List.foldlM_append, ← run, hxs]
  rfl

end Scan

namespace Layout

/-- Whether a group with a layout in it settles as pieces that are read in front of anything, and
are a condition if the layout is one. -/
structure SettledAs (w : Layout Term) (d : Dialect) (qs : List Piece) : Prop where
  settles : SettlesGroup (parenthesized (w.pieces false)) qs
  reads : ∀ n : Nesting, n.waiting = [] → ∃ l : Level Term,
    l.close.isCondition = w.isCondition ∧ ∀ rest,
      Scan.run ⟨[], n, .start⟩ (pieceLexemes d qs ++ rest) = Scan.run (.behind [] n l) rest

/-- A group with anything else in it stays as it is. -/
theorem settledAs_parenthesized {w : Layout Term} (h : w.Plain)
    (hsole : ¬ IsSole (writeEqual (w.pieces false))) (d : Dialect) :
    w.SettledAs d (parenthesized (w.pieces false)) := by
  constructor
  · intro b rest rest' hrest
    have hclosed (c : Bool) : Settles c (.word ")" :: rest) (.word ")" :: rest') := .closed hrest
    have hbody := w.settles_pieces false (b := true) (fun c _ => hclosed c)
      fun _ h => absurd h hsole
    simpa [parenthesized, Piece.writeTest] using Settles.opened (b := b) hbody
  · intro n hn
    refine ⟨⟨[], w.reading d⟩, isCondition_reading w, fun rest => ?_⟩
    have hread := (reads (d := d) h).whole.parenthesized [] n rest
    have hsettled : Scan.settled [] n (w.reading d) = .behind [] n ⟨[], w.reading d⟩ := by
      rw [Scan.settled, hn]
      rfl
    rw [hsettled] at hread
    simp only [parenthesized, pieceLexemes_opened, pieceLexemes_append, pieceLexemes_closed,
      pieceLexemes_nil, List.cons_append, List.append_assoc, List.nil_append]
    exact hread

/-- Pieces that are one inequality with null and nothing else end with it, and those in front are
bare. -/
theorem eq_append_of_isSole {ps : List Piece} (h : IsSole (writeEqual ps)) :
    ∃ vs, ps = vs ++ [.nullTest .ne] ∧ ∀ u ∈ writeEqual vs, u.IsBare := by
  obtain ⟨us, hus, heq⟩ := h
  obtain ⟨vs, last, rfl, rfl, hlast⟩ := List.map_eq_append_iff.mp heq
  obtain ⟨q, rfl, hq⟩ := List.map_eq_singleton_iff.mp hlast
  refine ⟨vs, ?_, hus⟩
  cases q with
  | nullTest o => cases o <;> first | rfl | cases hq
  | _ => cases hq

/-- A group with one inequality and nothing else becomes the negation of a test for absence. -/
theorem settledAs_negated {w : Layout Term} (h : w.Plain) {vs : List Piece}
    (hpieces : w.pieces false = vs ++ [.nullTest .ne]) (hbare : ∀ u ∈ writeEqual vs, u.IsBare)
    (d : Dialect) :
    w.SettledAs d (.word "NOT (" :: (vs ++ [.word " IS NULL", .word ")"])) := by
  constructor
  · intro b rest rest' hrest
    rw [hpieces]
    simpa [parenthesized, Piece.writeTest] using Settles.sole (b := b) hbare hrest
  · intro n hn
    obtain ⟨n', x, hx, hrun⟩ := (reads (d := d) h).whole [{ n with waiting := [.not] }]
    have hlexemes : pieceLexemes d (w.pieces false) = pieceLexemes d vs ++ [.is, .not, .null] := by
      rw [hpieces, pieceLexemes_append, pieceLexemes_nullTest]
      rfl
    have hwhole := hrun []
    rw [List.append_nil, hlexemes] at hwhole
    obtain ⟨outer, n'', y, hstate, habsent⟩ := Scan.run_isNotNull hwhole
    obtain ⟨rfl, rfl, rfl⟩ :
        [{ n with waiting := [.not] }] = outer ∧ n' = n'' ∧ x = .isNull true y := by
      simpa using hstate
    refine ⟨⟨[.not], n'.formula (.isNull false y)⟩, ?_, fun rest => ?_⟩
    · have hcondition := n'.isCondition_formula (x := .isNull false y) (y := .isNull true y) rfl
      rw [hx, isCondition_reading] at hcondition
      rw [Level.close, Level.isCondition_closeWith, hcondition]
      rfl
    · have hopened : Scan.run ⟨[], n, .start⟩ (.not :: .openParen :: (pieceLexemes d vs ++
          .is :: .null :: .closeParen :: rest)) =
          Scan.run ⟨[{ n with waiting := [.not] }], .fresh, .start⟩ (pieceLexemes d vs ++
            .is :: .null :: .closeParen :: rest) := by
        rw [← hn]
        rfl
      simp only [pieceLexemes_negated, pieceLexemes_append, pieceLexemes_isNull,
        pieceLexemes_closed, pieceLexemes_nil, List.cons_append, List.append_assoc,
        List.nil_append]
      rw [hopened, habsent]
      rfl

/-- A group with a layout in it is read once it has been settled. -/
theorem exists_settledAs {w : Layout Term} (h : w.Plain) (d : Dialect) :
    ∃ qs, w.SettledAs d qs := by
  by_cases hsole : IsSole (writeEqual (w.pieces false))
  · obtain ⟨vs, hpieces, hbare⟩ := eq_append_of_isSole hsole
    exact ⟨_, settledAs_negated h hpieces hbare d⟩
  · exact ⟨_, settledAs_parenthesized h hsole d⟩

/-! ## Several groups -/

/-- Further groups are read as conjuncts. The conjunction so far is what the reader keeps in front
of the next group. -/
theorem run_further {ws : List (Layout Term)} {gs : List (List Piece)}
    (h : List.Forall₂ (fun w g => w.SettledAs d g) ws gs) {n : Nesting} (hn : n.disjuncts = none)
    (x : Formula Term) :
    ∃ n' x', Scan.run ⟨[], n, .done x⟩ (pieceLexemes d (gs.flatMap fun g => .op .and :: g)) =
        some ⟨[], n', .done x'⟩ ∧
      (n'.formula x').isCondition = ((n.formula x).isCondition && ws.all isCondition) := by
  induction h generalizing n x with
  | nil => exact ⟨n, x, rfl, (Bool.and_true _).symm⟩
  | @cons w g ws gs hg _ ih =>
    obtain ⟨l, hl, hread⟩ := hg.reads ⟨none, some (n.conjunction x), []⟩ rfl
    obtain ⟨n', x', hrun, hcondition⟩ :=
      @ih ⟨none, some (n.conjunction x), l.waiting⟩ rfl l.last
    refine ⟨n', x', ?_, ?_⟩
    · rw [List.flatMap_cons, List.cons_append, pieceLexemes_op, pieceLexemes_append, Scan.run_cons]
      have hand : Scan.read ⟨[], n, .done x⟩ (.op .and) =
          some ⟨[], ⟨none, some (n.conjunction x), []⟩, .start⟩ := by
        rw [← hn]
        rfl
      rw [hand, Option.bind_some, hread]
      exact hrun
    · have hconjunction : n.formula x = n.conjunction x := by simp [Nesting.formula, hn]
      have hclose : (Level.closeWith l.waiting l.last).isCondition = w.isCondition := hl
      rw [hcondition, hconjunction, List.all_cons, ← Bool.and_assoc]
      simp [Nesting.formula, Nesting.conjunction, Formula.isCondition, hclose]

/-- Groups with plain layouts in them settle one by one. -/
theorem exists_settledAll {ws : List (Layout Term)} (h : ∀ w ∈ ws, w.Plain) (d : Dialect) :
    ∃ gs, List.Forall₂ (fun w g => w.SettledAs d g) ws gs := by
  induction ws with
  | nil => exact ⟨[], .nil⟩
  | cons w ws ih =>
    obtain ⟨hw, hws⟩ := List.forall_mem_cons.mp h
    obtain ⟨g, hg⟩ := exists_settledAs hw d
    obtain ⟨gs, hgs⟩ := ih hws
    exact ⟨g :: gs, .cons hg hgs⟩

/-- Several groups are read one after the other. -/
theorem run_joined {ws : List (Layout Term)} {gs : List (List Piece)}
    (h : List.Forall₂ (fun w g => w.SettledAs d g) ws gs) (hne : ws ≠ []) :
    ∃ k, formulaOf? (pieceLexemes d (joined gs)) = some k ∧
      k.isCondition = ws.all isCondition := by
  cases h with
  | nil => exact absurd rfl hne
  | @cons w g ws gs hg hgs =>
    obtain ⟨l, hl, hread⟩ := hg.reads .fresh rfl
    obtain ⟨n, x, hrun, hcondition⟩ := run_further hgs (n := ⟨none, none, l.waiting⟩) rfl l.last
    refine ⟨n.formula x, ?_, ?_⟩
    · rw [formulaOf?, Scan.initial, joined, pieceLexemes_append, hread]
      exact congrArg (Option.bind · Scan.formula?) hrun
    · have hclose : (Level.closeWith l.waiting l.last).isCondition = w.isCondition := hl
      rw [hcondition, List.all_cons, ← hclose]
      rfl

/-- The text of several layouts is read as a formula, if their parameters are in order. The formula
is a condition if and only if each of the layouts is one. -/
theorem exists_readFormula {ws : List (Layout Term)} (h : ∀ w ∈ ws, w.Plain) (hne : ws ≠ [])
    {tokens : List Token}
    (htokens : tokens = (conjunction (ws.map (pieces false))).flatMap Piece.tokens)
    (hindices : indices tokens = List.range (indices tokens).length) :
    ∃ k, d.readFormula (NullTest.finish (d.write tokens)) = some k ∧
      k.isCondition = ws.all isCondition := by
  subst htokens
  match ws with
  | [] => exact absurd rfl hne
  | [w] =>
    refine ⟨w.reading d, readFormula_layout (h w (by simp)) hindices, ?_⟩
    simp [isCondition_reading]
  | w :: next :: ws =>
    obtain ⟨gs, hgs⟩ := exists_settledAll h d
    have hbodies : ∀ ps ∈ (w :: next :: ws).map (pieces false), TidyBefore ps :=
      List.forall_mem_map.mpr fun w hw rest => tidy_pieces (h w hw) false
    have hsettles : List.Forall₂ SettlesGroup
        (((w :: next :: ws).map (pieces false)).map parenthesized) gs := by
      rw [List.map_map, List.forall₂_map_left_iff]
      exact hgs.imp fun _ _ hg => hg.settles
    have hlexemes := lexemes_finish (d := d) (settles_joined hsettles) (tidy_conjunction hbodies)
      hindices
    obtain ⟨k, hk, hcondition⟩ := run_joined hgs nofun
    exact ⟨k, (congrArg formulaOf? hlexemes).trans hk, hcondition⟩

end Layout

end SqlCompose.Sql
