import SqlCompose.Proofs.Condition.Group

/-!
# Clauses

A clause is the condition of one predicate as it is written: connectives within others stand in
parentheses, and so does what is negated. The clauses of a query stand alone, or each in a group of
its own. Their pieces are tidy (`Sql.tidy_clausePieces`), and of their groups those are settled that
hold an inequality with null alone (`Sql.finishes_clausePieces`).
-/

namespace SqlCompose.Sql

/-- The condition of a predicate as it is written. -/
inductive Clause where
  | compare (op : BinaryOp) (x y : Term)
  | truth (b : Bool)
  | isIn (column : String) (items : List Term)
  | not (c : Clause)
  | connect (op : BinaryOp) (a b : Clause)

/-- Items with commas between them. -/
def itemPieces : List Term → List Piece
  | [] => []
  | [x] => [.term x]
  | x :: xs => .term x :: .word ", " :: itemPieces xs

namespace Clause

/-- Whether a clause is one that a query can have, with columns under names of some kind. -/
def Under (P : String → Prop) : Clause → Prop
  | .compare op x y => op.isLogical = false ∧ x.Under P ∧ y.Under P
  | .truth _ => True
  | .isIn column items => P column ∧ items ≠ [] ∧ ∀ x ∈ items, x.Under P
  | .not c => c.Under P
  | .connect op a b => op.isLogical = true ∧ a.Under P ∧ b.Under P

/-- Whether a clause is one that a query can have, with columns under plain names. -/
def Plain (c : Clause) : Prop := c.Under IsPlain

/-- The pieces of a clause; the flag says whether a connective stands in parentheses. -/
def pieces : Bool → Clause → List Piece
  | _, .compare op x y =>
    .term x :: if y = .null then [.nullTest op] else [.op op, .term y]
  | _, .truth b => [.truth b]
  | _, .isIn column items =>
    .term (.column column) :: .word " IN (" :: (itemPieces items ++ [.word ")"])
  | _, .not c => .word "NOT (" :: (c.pieces false ++ [.word ")"])
  | false, .connect op a b => a.pieces true ++ .op op :: b.pieces true
  | true, .connect op a b => .word "(" :: (a.pieces true ++ .op op :: (b.pieces true ++ [.word ")"]))

/-- The pieces of a clause in a group of its own. -/
def group (c : Clause) : List Piece := .word "(" :: (c.pieces false ++ [.word ")"])

end Clause

/-- The pieces of several clauses that all have to hold. -/
def clausePieces : List Clause → List Piece
  | [] => []
  | [c] => c.pieces false
  | c :: cs => c.group ++ cs.flatMap fun c => .op .and :: c.group

/-- Several clauses are written as the conjunction of their pieces. -/
theorem clausePieces_eq (cs : List Clause) :
    clausePieces cs = conjunction (cs.map (Clause.pieces false)) := by
  match cs with
  | [] => rfl
  | [c] => rfl
  | c :: next :: cs =>
    simp [clausePieces, conjunction, joined, Clause.group, parenthesized, List.flatMap_map]

/-! ## Tidiness -/

/-- Items of a membership test are tidy in front of what can stand behind an operand. -/
theorem tidy_itemPieces {items : List Term} (hitems : ∀ x ∈ items, x.Plain) {rest : List Piece}
    (hrest : Tidy rest) (hfirst : BreaksFirst rest) : Tidy (itemPieces items ++ rest) := by
  fun_induction itemPieces items with
  | case1 => exact hrest
  | case2 x => exact hrest.cons_break (hitems x (by simp)) (by simp) hfirst
  | case3 x xs _ ih =>
    obtain ⟨hx, hxs⟩ := List.forall_mem_cons.mp hitems
    exact ((ih hxs).cons_word ", " (by simp)).cons_break hx (by simp) (by rintro p ⟨rfl⟩; decide)

/-- A connective between pieces that are tidy in front of what can stand behind an operand. -/
theorem tidy_connective {op : BinaryOp} (hop : op.isLogical = true) {ps qs : List Piece}
    (hps : ∀ {rest}, Tidy rest → BreaksFirst rest → Tidy (ps ++ rest))
    (hqs : ∀ {rest}, Tidy rest → BreaksFirst rest → Tidy (qs ++ rest)) {rest : List Piece}
    (hrest : Tidy rest) (hfirst : BreaksFirst rest) : Tidy (ps ++ .op op :: (qs ++ rest)) := by
  have hnot : op.isEquality ≠ true := by cases op <;> first | decide | cases hop
  have hright := (hqs hrest hfirst).cons_op (o := op) fun heq => absurd heq hnot
  exact hps hright (breaksFirst_op _ _)

/-- Such pieces in parentheses. -/
theorem tidy_parenthesized {ps : List Piece}
    (hps : ∀ {rest}, Tidy rest → BreaksFirst rest → Tidy (ps ++ rest)) {rest : List Piece}
    (hrest : Tidy rest) (hfirst : BreaksFirst rest) :
    Tidy (.word "(" :: (ps ++ .word ")" :: rest)) :=
  (hps (hrest.cons_closed hfirst) (breaksFirst_closed rest)).cons_word "(" (by simp)

/-- The pieces of a clause are tidy in front of what can stand behind an operand. -/
theorem Clause.tidy_pieces {c : Clause} (h : c.Plain) (nested : Bool) {rest : List Piece}
    (hrest : Tidy rest) (hfirst : BreaksFirst rest) : Tidy (c.pieces nested ++ rest) := by
  induction c generalizing nested rest with
  | compare op x y =>
    obtain ⟨hop, hx, hy⟩ := h
    by_cases hnull : y = .null
    · have htest := hrest.cons_break (p := .nullTest op) trivial (by simp) hfirst
      simpa [pieces, hnull] using htest.cons_break (p := .term x) hx (by simp) (by rintro p ⟨rfl⟩; rfl)
    · have hterm := hrest.cons_break (p := .term y) hy (by simp) hfirst
      have hright := hterm.cons_op (o := op) (by simpa using fun _ => hnull)
      simpa [pieces, hnull] using hright.cons_break (p := .term x) hx (by simp) (breaksFirst_op _ _)
  | truth b => exact hrest.cons_break trivial (by simp) hfirst
  | isIn column items =>
    obtain ⟨hcolumn, -, hitems⟩ := h
    have hlist := tidy_itemPieces hitems (hrest.cons_closed hfirst) (breaksFirst_closed rest)
    have hin := (hlist.cons_word " IN (" (by simp)).cons_break
      (p := .term (.column column)) hcolumn (by simp) (by rintro p ⟨rfl⟩; decide)
    simpa [pieces] using hin
  | not c ih =>
    have hbody := ih h false (hrest.cons_closed hfirst) (breaksFirst_closed rest)
    simpa [pieces] using hbody.cons_word "NOT (" (by simp)
  | connect op a b iha ihb =>
    obtain ⟨hop, ha, hb⟩ := h
    have hbody {rest : List Piece} (hrest : Tidy rest) (hfirst : BreaksFirst rest) :
        Tidy ((a.pieces true ++ .op op :: b.pieces true) ++ rest) := by
      simpa using tidy_connective hop (iha ha true) (ihb hb true) hrest hfirst
    cases nested with
    | false => simpa [pieces] using hbody hrest hfirst
    | true => simpa [pieces] using tidy_parenthesized hbody hrest hfirst

/-- The pieces of several clauses are tidy. -/
theorem tidy_clausePieces {cs : List Clause} (h : ∀ c ∈ cs, c.Plain) : Tidy (clausePieces cs) := by
  rw [clausePieces_eq]
  refine tidy_conjunction (List.forall_mem_map.mpr fun c hc rest hrest hfirst => ?_)
  exact c.tidy_pieces (h c hc) false hrest hfirst

/-! ## Settling -/

namespace Clause

/-- Whether a clause is an inequality with null. -/
def IsDifference (c : Clause) : Prop := ∃ x, c = .compare .ne x .null

/-- The pieces of a group that has been settled. -/
def settled : Clause → List Piece
  | .compare .ne x .null => [.word "NOT (", .term x, .word " IS NULL", .word ")"]
  | c => c.group

/-- A group settles as itself unless it is an inequality with null. -/
theorem settled_of_not_isDifference {c : Clause} (h : ¬ c.IsDifference) : c.settled = c.group := by
  unfold settled
  split
  next x => exact absurd ⟨x, rfl⟩ h
  · rfl

end Clause

/-- Items of a membership test settle as they are. -/
theorem settles_itemPieces (items : List Term) {b : Bool} {rest rest' : List Piece}
    (hrest : ∀ b, Settles b rest rest') :
    Settles b (writeEqual (itemPieces items) ++ rest) (writeEqual (itemPieces items) ++ rest') := by
  fun_induction itemPieces items with
  | case1 => exact hrest b
  | case2 x => exact .inner trivial (hrest b)
  | case3 x xs _ ih =>
    have hcomma : Piece.IsInner (.word ", ") := by simp [Piece.IsInner]
    exact .inner trivial (.inner hcomma ih)

/-- Within a clause nothing is settled, unless it is an inequality that is a group of its own. -/
theorem Clause.settles_pieces (c : Clause) (nested : Bool) {b : Bool} {rest rest' : List Piece}
    (hrest : ∀ b, Settles b rest rest')
    (hsole : b = true → c.IsDifference → rest.head? ≠ some (.word ")")) :
    Settles b (writeEqual (c.pieces nested) ++ rest) (writeEqual (c.pieces nested) ++ rest') := by
  induction c generalizing nested b rest rest' with
  | compare op x y =>
    by_cases hnull : y = .null
    · subst hnull
      cases op with
      | eq =>
        have hword : Piece.IsInner (.word " IS NULL") := by simp [Piece.IsInner]
        exact .inner trivial (.inner hword (hrest b))
      | ne =>
        refine .inner trivial ?_
        by_cases hclose : rest.head? = some (.word ")")
        · obtain rfl : b = false := by
            cases b with
            | false => rfl
            | true => exact absurd hclose (hsole rfl ⟨x, rfl⟩)
          obtain ⟨rest, rfl⟩ := List.head?_eq_some_iff.mp hclose
          obtain ⟨rest', rfl, h⟩ := (hrest false).of_closed
          exact .ending h
        · exact .test (fun _ => hclose) (hrest false)
      | lt | le | gt | ge | and | or => exact .inner trivial (.test (by simp) (hrest false))
    · simpa [pieces, hnull, Piece.writeTest] using
        Settles.inner (p := .term x) trivial (.op (.inner (p := .term y) trivial (hrest false)))
  | truth v => exact .inner trivial (hrest b)
  | isIn column items =>
    have hclosed (b : Bool) : Settles b (.word ")" :: rest) (.word ")" :: rest') :=
      .closed (hrest false)
    have hlist := settles_itemPieces items (b := true) hclosed
    simpa [pieces, Piece.writeTest] using
      Settles.inner (b := b) (p := .term (.column column)) trivial (.members hlist)
  | not c ih =>
    have hclosed (b : Bool) : Settles b (.word ")" :: rest) (.word ")" :: rest') :=
      .closed (hrest false)
    have hbody := ih false (b := false) hclosed (by simp)
    simpa [pieces, Piece.writeTest] using Settles.negated (b := b) hbody
  | connect op x y ihx ihy =>
    have hbody {b : Bool} {rest rest' : List Piece} (hrest : ∀ b, Settles b rest rest') :
        Settles b (writeEqual (x.pieces true ++ .op op :: y.pieces true) ++ rest)
          (writeEqual (x.pieces true ++ .op op :: y.pieces true) ++ rest') := by
      have hright := ihy true (b := false) hrest (by simp)
      have hleft := ihx true (b := b) (fun b => .op (b := b) (o := op) hright) (by simp)
      simpa [Piece.writeTest] using hleft
    cases nested with
    | false => exact hbody hrest
    | true =>
      have hclosed (b : Bool) : Settles b (.word ")" :: rest) (.word ")" :: rest') :=
        .closed (hrest false)
      have hgroup := Settles.opened (b := b) (hbody (b := true) hclosed)
      simpa [pieces, Piece.writeTest] using hgroup

/-- A group is settled if it holds an inequality with null alone. -/
theorem Clause.settles_group (c : Clause) : SettlesGroup c.group c.settled := by
  intro b rest rest' hrest
  by_cases h : c.IsDifference
  · obtain ⟨x, rfl⟩ := h
    have hbare : ∀ u ∈ [Piece.term x], u.IsBare := List.forall_mem_singleton.mpr trivial
    exact .sole hbare hrest
  · have hclosed (b : Bool) : Settles b (.word ")" :: rest) (.word ")" :: rest') := .closed hrest
    have hbody := c.settles_pieces false (b := true) hclosed fun _ hd => absurd hd h
    rw [settled_of_not_isDifference h]
    simpa [group, Piece.writeTest] using Settles.opened (b := b) hbody

/-- The pieces of several clauses once their groups are settled. -/
def settledPieces : List Clause → List Piece
  | [] => []
  | [c] => c.pieces false
  | c :: cs => c.settled ++ cs.flatMap fun c => .op .and :: c.settled

/-- Several clauses settle as their settled groups. -/
theorem finishes_clausePieces (cs : List Clause) :
    Finishes (clausePieces cs) (writeEqual (settledPieces cs)) := by
  match cs with
  | [] => exact .nil false
  | [c] =>
    have h := c.settles_pieces false (b := false) (fun b => .nil b) (by simp)
    rwa [List.append_nil] at h
  | c :: next :: cs =>
    have hall : List.Forall₂ SettlesGroup ((c :: next :: cs).map Clause.group)
        ((c :: next :: cs).map Clause.settled) :=
      List.forall₂_map_left_iff.mpr (List.forall₂_map_right_iff.mpr
        (List.forall₂_same.mpr fun c _ => c.settles_group))
    have hpieces : clausePieces (c :: next :: cs) =
        joined ((c :: next :: cs).map Clause.group) := by
      simp [clausePieces, joined, List.flatMap_map]
    have hsettled : settledPieces (c :: next :: cs) =
        joined ((c :: next :: cs).map Clause.settled) := by
      simp [settledPieces, joined, List.flatMap_map]
    rw [hpieces, hsettled]
    exact settles_joined hall

end SqlCompose.Sql
