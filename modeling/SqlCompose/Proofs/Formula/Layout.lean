import SqlCompose.Proofs.Condition.Clause

/-!
# Layouts

A layout is a formula as it is written: what is negated stands in parentheses, and so does a
connective within others, but the operands of a comparison stand as they are. If an operand begins
with the null literal, it makes a null test together with a sign of equality in front
(`Sql.glue`). The pieces of a layout are tidy (`Sql.Layout.tidy_pieces`), and none of their groups is
settled (`Sql.Layout.finishes_pieces`), unless all of the layout is an inequality with null and
stands in a group of its own (`Sql.Layout.settles_pieces`).
-/

namespace SqlCompose.Sql

/-- A formula over operands as it is written. -/
inductive Layout (α : Type) where
  | operand (x : α)
  | null
  | truth (b : Bool)
  | isIn (a : Layout α) (items : List α)
  | not (a : Layout α)
  | binary (op : BinaryOp) (a b : Layout α)

/-- An operator in front of pieces. The null literal makes a null test with a sign of equality. -/
def glue (op : BinaryOp) : List Piece → List Piece
  | .term .null :: ps =>
    if op.isEquality then .nullTest op :: ps else .op op :: .term .null :: ps
  | ps => .op op :: ps

namespace Layout

/-- A layout over other operands. -/
def map {α β : Type} (f : α → β) : Layout α → Layout β
  | .operand x => .operand (f x)
  | .null => .null
  | .truth b => .truth b
  | .isIn a items => .isIn (a.map f) (items.map f)
  | .not a => .not (a.map f)
  | .binary op a b => .binary op (a.map f) (b.map f)

/-- Whether an operand of SQL is one that can be written, and not the null literal. -/
def PlainOperand (x : Term) : Prop := x.Plain ∧ x ≠ .null

/-- Whether a layout is one that a query can have, with columns under plain names. -/
def Plain : Layout Term → Prop
  | .operand x => PlainOperand x
  | .null | .truth _ => True
  | .isIn a items => a.Plain ∧ items ≠ [] ∧ ∀ y ∈ items, y.Plain
  | .not a => a.Plain
  | .binary _ a b => a.Plain ∧ b.Plain

/-- The pieces of a layout; the flag says whether a connective stands in parentheses. -/
def pieces : Bool → Layout Term → List Piece
  | _, .operand x => [.term x]
  | _, .null => [.term .null]
  | _, .truth b => [.truth b]
  | _, .isIn a items => a.pieces true ++ .word " IN (" :: (itemPieces items ++ [.word ")"])
  | _, .not a => .word "NOT (" :: (a.pieces false ++ [.word ")"])
  | nested, .binary op a b =>
    if op.isLogical then
      if nested then .word "(" :: (a.pieces true ++ .op op :: (b.pieces true ++ [.word ")"]))
      else a.pieces true ++ .op op :: b.pieces true
    else a.pieces true ++ glue op (b.pieces true)

/-- The tokens of a layout. -/
def tokens (w : Layout Term) (nested : Bool) : List Token := (w.pieces nested).flatMap Piece.tokens

end Layout

/-! ## Operators and the null literal -/

section Glue

variable {op : BinaryOp} {ps rest : List Piece}

/-- What an operator in front of pieces looks like. -/
theorem glue_cases (op : BinaryOp) (ps : List Piece) :
    (∃ tail, ps = .term .null :: tail ∧ op.isEquality = true ∧ glue op ps = .nullTest op :: tail) ∨
    ((op.isEquality = true → ps.head? ≠ some (.term .null)) ∧ glue op ps = .op op :: ps) := by
  unfold glue
  split
  next tail =>
    by_cases hop : op.isEquality = true
    · exact .inl ⟨tail, rfl, hop, if_pos hop⟩
    · exact .inr ⟨fun h => absurd h hop, if_neg hop⟩
  next hnull =>
    refine .inr ⟨fun _ hhead => ?_, rfl⟩
    obtain ⟨tail, rfl⟩ := List.head?_eq_some_iff.mp hhead
    exact hnull tail rfl

/-- An operator joins the first of some pieces and leaves what stands behind them. -/
theorem glue_append (op : BinaryOp) (hne : ps ≠ []) (rest : List Piece) :
    glue op ps ++ rest = glue op (ps ++ rest) := by
  obtain ⟨p, ps, rfl⟩ := List.exists_cons_of_ne_nil hne
  unfold glue
  cases p with
  | term x => cases x <;> first | rfl | (dsimp only [List.cons_append]; split <;> rfl)
  | _ => rfl

/-- Joining an operator to pieces writes it in front of them. -/
theorem tokens_glue (op : BinaryOp) (ps : List Piece) :
    (glue op ps).flatMap Piece.tokens = .op op :: ps.flatMap Piece.tokens := by
  rcases glue_cases op ps with ⟨tail, rfl, -, h⟩ | ⟨-, h⟩
  · rw [h]
    rfl
  · rw [h]
    rfl

/-- Joining an operator keeps pieces tidy. -/
theorem tidy_glue (op : BinaryOp) (h : Tidy ps) : Tidy (glue op ps) := by
  rcases glue_cases op ps with ⟨tail, rfl, -, hglue⟩ | ⟨hnull, hglue⟩
  · rw [hglue]
    refine h.of_cons.cons_break trivial (by simp) fun q hq => ?_
    exact ((List.isChain_cons.mp h.chain).1 q hq).1 rfl
  · rw [hglue]
    exact h.cons_op hnull

/-- Pieces with an operator in front can stand behind anything. -/
theorem breaksFirst_glue (op : BinaryOp) (ps : List Piece) : BreaksFirst (glue op ps) := by
  rcases glue_cases op ps with ⟨tail, -, -, h⟩ | ⟨-, h⟩
  · rw [h]
    rintro p ⟨rfl⟩
    rfl
  · rw [h]
    exact breaksFirst_op op ps

/-- Pieces with an operator in front do not close a group. -/
theorem head_glue (op : BinaryOp) (ps : List Piece) : (glue op ps).head? ≠ some (.word ")") := by
  rcases glue_cases op ps with ⟨tail, -, -, h⟩ | ⟨-, h⟩ <;> simp [h]

end Glue

namespace Layout

/-- Every layout is written. -/
theorem pieces_ne_nil (nested : Bool) (w : Layout Term) : w.pieces nested ≠ [] := by
  cases w with
  | binary op a b =>
    unfold pieces
    split
    · split <;> simp
    · rcases glue_cases op (b.pieces true) with ⟨tail, -, -, h⟩ | ⟨-, h⟩ <;> simp [h]
  | _ => simp [pieces]

/-! ## Tidiness -/

/-- The pieces of a layout are tidy in front of what can stand behind an operand. -/
theorem tidy_pieces {w : Layout Term} (h : w.Plain) (nested : Bool) {rest : List Piece}
    (hrest : Tidy rest) (hfirst : BreaksFirst rest) : Tidy (w.pieces nested ++ rest) := by
  induction w generalizing nested rest with
  | operand x => exact hrest.cons_break h.1 (by simp) hfirst
  | null => exact hrest.cons_break (p := .term .null) trivial (by simp) hfirst
  | truth b => exact hrest.cons_break trivial (by simp) hfirst
  | isIn a items ih =>
    obtain ⟨ha, -, hitems⟩ := h
    have hlist := tidy_itemPieces hitems (hrest.cons_closed hfirst) (breaksFirst_closed rest)
    have hin := ih ha true (hlist.cons_word " IN (" (by simp)) (by rintro p ⟨rfl⟩; decide)
    simpa [pieces] using hin
  | not a ih =>
    have hbody := ih h false (hrest.cons_closed hfirst) (breaksFirst_closed rest)
    simpa [pieces] using hbody.cons_word "NOT (" (by simp)
  | binary op a b iha ihb =>
    obtain ⟨ha, hb⟩ := h
    unfold pieces
    split
    next hop =>
      have hbody {rest : List Piece} (hrest : Tidy rest) (hfirst : BreaksFirst rest) :
          Tidy ((a.pieces true ++ .op op :: b.pieces true) ++ rest) := by
        simpa using tidy_connective hop (iha ha true) (ihb hb true) hrest hfirst
      split
      · simpa using tidy_parenthesized hbody hrest hfirst
      · simpa using hbody hrest hfirst
    next =>
      rw [List.append_assoc, glue_append op (pieces_ne_nil true b)]
      exact iha ha true (tidy_glue op (ihb hb true hrest hfirst)) (breaksFirst_glue _ _)

/-! ## Settling -/

/-- Behind the null literal at the beginning, no parenthesis is closed. -/
theorem head_behind_null {w : Layout Term} {tail : List Piece}
    (h : w.pieces true = .term .null :: tail) : tail.head? ≠ some (.word ")") := by
  have hbehind {a : Layout Term} {ps tail : List Piece}
      (ha : ∀ {tail}, a.pieces true = .term .null :: tail → tail.head? ≠ some (.word ")"))
      (hps : ps.head? ≠ some (.word ")")) (h : a.pieces true ++ ps = .term .null :: tail) :
      tail.head? ≠ some (.word ")") := by
    rcases List.append_eq_cons_iff.mp h with ⟨hnil, -⟩ | ⟨front, hfront, rfl⟩
    · exact absurd hnil (pieces_ne_nil true a)
    · cases front with
      | nil => exact hps
      | cons p front => simpa using ha hfront
  induction w generalizing tail with
  | operand | null =>
    obtain ⟨-, rfl⟩ := List.cons.inj h
    simp
  | truth | not => simp [pieces] at h
  | isIn a items ih => exact hbehind (fun h => ih h) (by simp) h
  | binary op a b iha ihb =>
    unfold pieces at h
    split at h
    · simp at h
    · exact hbehind (fun h => iha h) (head_glue op _) h

end Layout

/-- Writing null tests with equality does not make the first piece close a group. -/
theorem head_writeEqual {ps : List Piece} (h : ps.head? ≠ some (.word ")")) :
    (writeEqual ps).head? ≠ some (.word ")") := by
  cases ps with
  | nil => simp
  | cons p ps =>
    cases p with
    | nullTest o => by_cases ho : o = .eq <;> simp [Piece.writeTest, ho]
    | word word => simpa [Piece.writeTest] using h
    | _ => simp [Piece.writeTest]

/-- What settles behind a term settles on its own. -/
theorem Settles.of_term {b : Bool} {x : Term} {ps qs : List Piece}
    (h : Settles b (.term x :: ps) (.term x :: qs)) : Settles b ps qs := by
  cases h with
  | inner _ h => exact h

/-- Whether pieces are one inequality with null and nothing else. -/
def IsSole (ps : List Piece) : Prop :=
  ∃ us : List Piece, (∀ u ∈ us, u.IsBare) ∧ ps = us ++ [.nullTest .ne]

/-- Bare pieces may be put in front of one inequality with null. -/
theorem IsSole.of_append {us ps : List Piece} (hus : ∀ u ∈ us, u.IsBare) (h : IsSole ps) :
    IsSole (us ++ ps) := by
  obtain ⟨vs, hvs, rfl⟩ := h
  refine ⟨us ++ vs, fun u hu => ?_, by simp⟩
  rcases List.mem_append.mp hu with hu | hu
  · exact hus u hu
  · exact hvs u hu

/-- A bare piece may be taken from the front of one inequality with null. -/
theorem IsSole.of_cons {p : Piece} {ps : List Piece} (hp : p.IsBare) (h : IsSole (p :: ps)) :
    IsSole ps := by
  obtain ⟨us, hus, heq⟩ := h
  cases us with
  | nil =>
    obtain rfl : p = .nullTest .ne := (List.cons.inj heq).1
    exact hp.elim
  | cons u us => exact ⟨us, (List.forall_mem_cons.mp hus).2, (List.cons.inj heq).2⟩

/-- Where no group is open, none is behind more pieces. -/
theorem Settles.unflagged {P : Prop} {ps qs : List Piece} (h : Settles false ps qs) (c : Bool)
    (hc : c = true → false = true ∧ P) : Settles c ps qs := by
  cases c with
  | false => exact h
  | true => cases (hc rfl).1

namespace Layout

/-- What a comparison writes between its operands settles, unless that makes the comparison one
inequality with null in a group of its own. -/
theorem settles_glue (op : BinaryOp) {y : Layout Term} {c : Bool} {rest rest' : List Piece}
    (hright : ∀ b, (b = true → c = true ∧ op = .eq ∧
        ∃ tail, y.pieces true = .term .null :: tail) →
      Settles b (writeEqual (y.pieces true) ++ rest) (writeEqual (y.pieces true) ++ rest'))
    (hrest : Settles false rest rest')
    (hclose : c = true → IsSole (writeEqual (glue op (y.pieces true))) →
      rest.head? ≠ some (.word ")")) :
    Settles c (writeEqual (glue op (y.pieces true)) ++ rest)
      (writeEqual (glue op (y.pieces true)) ++ rest') := by
  rcases glue_cases op (y.pieces true) with ⟨tail, hy, hop, hglue⟩ | ⟨-, hglue⟩
  · rw [hglue] at hclose ⊢
    have hleft := hright false nofun
    rw [hy] at hleft
    cases op with
    | eq =>
      have hword : Piece.IsInner (.word " IS NULL") := by simp [Piece.IsInner]
      have hnull := hright c fun hc => ⟨hc, rfl, tail, hy⟩
      rw [hy] at hnull
      exact .inner hword hnull.of_term
    | ne =>
      by_cases hhead : (writeEqual tail ++ rest).head? = some (.word ")")
      · -- a parenthesis is closed right behind the test, so nothing else stands behind the null
        obtain rfl : tail = [] := by
          cases tail with
          | nil => rfl
          | cons p tail => exact absurd (by simpa using hhead) (head_writeEqual (head_behind_null hy))
        obtain rfl : c = false := by
          cases c with
          | false => rfl
          | true => exact absurd hhead (hclose rfl ⟨[], by simp, rfl⟩)
        obtain ⟨ps, rfl⟩ := List.head?_eq_some_iff.mp hhead
        obtain ⟨qs, rfl, hsettles⟩ := hrest.of_closed
        exact .ending hsettles
      · exact .test (fun _ => hhead) hleft.of_term
    | _ => cases hop
  · rw [hglue]
    exact .op (hright false nofun)

/-- Within a layout nothing is settled, unless it is one inequality with null in a group of its
own. -/
theorem settles_pieces (w : Layout Term) (nested : Bool) {b : Bool} {rest rest' : List Piece}
    (hrest : ∀ c, (c = true → b = true ∧ ∀ p ∈ writeEqual (w.pieces nested), p.IsBare) →
      Settles c rest rest')
    (hclose : b = true → IsSole (writeEqual (w.pieces nested)) →
      rest.head? ≠ some (.word ")")) :
    Settles b (writeEqual (w.pieces nested) ++ rest) (writeEqual (w.pieces nested) ++ rest') := by
  induction w generalizing nested b rest rest' with
  | operand | null | truth =>
    refine .inner trivial (hrest b fun hb => ⟨hb, ?_⟩)
    exact List.forall_mem_singleton.mpr trivial
  | isIn a items ih =>
    have hclosed (c : Bool) : Settles c (.word ")" :: rest) (.word ")" :: rest') :=
      .closed (hrest false (by simp))
    have hlist := settles_itemPieces items (b := true) hclosed
    have hitem := ih true (b := b) (fun c _ => Settles.members (b := c) hlist) (by simp)
    simpa [pieces, Piece.writeTest] using hitem
  | not a ih =>
    have hclosed (c : Bool) : Settles c (.word ")" :: rest) (.word ")" :: rest') :=
      .closed (hrest false (by simp))
    have hbody := ih false (b := false) (fun c _ => hclosed c) (by simp)
    simpa [pieces, Piece.writeTest] using Settles.negated (b := b) hbody
  | binary op x y ihx ihy =>
    unfold pieces at hrest hclose ⊢
    split at hrest
    next hop =>
      have hbody {b : Bool} {rest rest' : List Piece} (hrest : Settles false rest rest') :
          Settles b (writeEqual (x.pieces true ++ .op op :: y.pieces true) ++ rest)
            (writeEqual (x.pieces true ++ .op op :: y.pieces true) ++ rest') := by
        have hright := ihy true (b := false) hrest.unflagged (by simp)
        have hleft := ihx true (b := b) (fun c _ => Settles.op (b := c) (o := op) hright) (by simp)
        simpa [Piece.writeTest] using hleft
      rw [if_pos hop]
      split
      · have hclosed : Settles false (.word ")" :: rest) (.word ")" :: rest') :=
          .closed (hrest false (by simp))
        have hgroup := Settles.opened (b := b) (hbody (b := true) hclosed)
        simpa [Piece.writeTest] using hgroup
      · exact hbody (hrest false (by simp))
    next hop =>
      rw [if_neg hop] at hclose ⊢
      rw [writeEqual_append] at hrest hclose ⊢
      rw [List.append_assoc, List.append_assoc]
      have hfirst : (writeEqual (glue op (y.pieces true)) ++ rest).head? ≠ some (.word ")") := by
        have hhead := head_writeEqual (head_glue op (y.pieces true))
        rcases glue_cases op (y.pieces true) with ⟨tail, -, -, hglue⟩ | ⟨-, hglue⟩ <;>
          simpa [hglue] using hhead
      refine ihx true (fun c hc => ?_) fun _ _ => hfirst
      refine settles_glue op (fun b' hb' => ?_) (hrest false (by simp)) fun hct hsole => ?_
      · refine ihy true (fun c' hc' => hrest c' fun htrue => ?_) fun htrue hsole => ?_
        · obtain ⟨hb, hy⟩ := hc' htrue
          obtain ⟨hct, rfl, tail, htail⟩ := hb' hb
          obtain ⟨hb, hx⟩ := hc hct
          refine ⟨hb, List.forall_mem_append.mpr ⟨hx, ?_⟩⟩
          rw [htail] at hy ⊢
          exact List.forall_mem_cons.mpr ⟨rfl, (List.forall_mem_cons.mp hy).2⟩
        · obtain ⟨hct, rfl, tail, htail⟩ := hb' htrue
          obtain ⟨hb, hx⟩ := hc hct
          refine hclose hb (.of_append hx ?_)
          rw [htail] at hsole ⊢
          have htest : ∀ u ∈ [Piece.word " IS NULL"], u.IsBare :=
            List.forall_mem_singleton.mpr rfl
          have hnull : (Piece.term .null).IsBare := trivial
          exact (hsole.of_cons hnull).of_append htest
      · obtain ⟨hb, hbare⟩ := hc hct
        exact hclose hb (hsole.of_append hbare)

/-- The groups of a layout stay as they are. -/
theorem finishes_pieces (w : Layout Term) :
    Finishes (w.pieces false) (writeEqual (w.pieces false)) := by
  have h := w.settles_pieces false (b := false) (fun c _ => .nil c) nofun
  rwa [List.append_nil] at h

end Layout

end SqlCompose.Sql
