import SqlCompose.Proofs.Formula.Grouping

/-!
# Layouts that are misread

A layout is read as it is meant only if it is grouped (`Sql.Layout.reading_eq_tree_iff`). What is
read has the size of what is meant, so it is enough to look at the left operand of the outermost
test: where a comparison is not grouped, the test that is read as the outermost one has a smaller
left operand, or a larger one, or it stands under a negation.
-/

namespace SqlCompose.Sql

variable {α : Type}

/-! ## Sizes -/

namespace Formula

/-- How many operands and operators a formula has; a null test has two besides its operand. -/
def size : Formula α → Nat
  | .operand _ | .number _ | .null | .truth _ => 1
  | .compare _ x y | .and x y | .or x y => x.size + y.size + 1
  | .isNull _ x => x.size + 2
  | .isIn x _ | .not x => x.size + 1

/-- The left operand of a test. -/
def left? : Formula α → Option (Formula α)
  | .compare _ x _ | .isNull _ x | .isIn x _ => some x
  | _ => none

/-- The left operand of a test is smaller than the test. -/
theorem size_lt_of_left {x z : Formula α} (h : x.left? = some z) : z.size < x.size := by
  cases x with
  | compare | isNull | isIn =>
    obtain rfl := Option.some.inj h
    simp only [size]
    omega
  | _ => cases h

end Formula

/-- How many operands and operators wait. -/
def waitingSize : List (Waiting α) → Nat
  | [] => 0
  | .not :: ws => waitingSize ws + 1
  | .compare x _ :: ws => waitingSize ws + x.size + 1

/-- What waits in two places adds up. -/
theorem waitingSize_append (us ws : List (Waiting α)) :
    waitingSize (us ++ ws) = waitingSize us + waitingSize ws := by
  induction us with
  | nil => simp [waitingSize]
  | cons u us ih => cases u <;> simp only [List.cons_append, waitingSize, ih] <;> omega

namespace Level

/-- How many operands and operators a level has. -/
def size (l : Level α) : Nat := waitingSize l.waiting + l.last.size

/-- Settling an operand loses nothing. -/
theorem size_settle (ws : List (Waiting α)) (x : Formula α) :
    (settle ws x).size = waitingSize ws + x.size := by
  cases ws with
  | nil => rfl
  | cons w ws =>
    cases w with
    | not => rfl
    | compare y op =>
      simp only [settle, size, waitingSize, Formula.size]
      omega

/-- What waits is closed from the nearest on. -/
theorem closeWith_append (us ws : List (Waiting α)) (x : Formula α) :
    closeWith (us ++ ws) x = closeWith ws (closeWith us x) := by
  induction us generalizing x with
  | nil => rfl
  | cons u us ih => cases u <;> exact ih _

end Level

namespace Layout

variable {d : Dialect}

/-- A comparison has its operands and one operator. -/
theorem size_compareTree (op : BinaryOp) (x : Formula α) (b : Layout α) :
    (compareTree op x b (b.tree d)).size = x.size + (b.tree d).size + 1 := by
  unfold compareTree
  split <;> rfl

/-- A connective has its parts and one operator. -/
theorem size_connect (op : BinaryOp) (x y : Formula α) :
    (connect op x y).size = x.size + y.size + 1 := by
  unfold connect
  split <;> rfl

/-- Closing a level loses nothing. -/
theorem size_close (l : Level α) : l.close.size = l.size := by
  obtain ⟨ws, x⟩ := l
  show (Level.closeWith ws x).size = waitingSize ws + x.size
  induction ws generalizing x with
  | nil => simp [Level.closeWith, waitingSize]
  | cons w ws ih =>
    cases w with
    | not =>
      rw [Level.closeWith, ih]
      simp only [waitingSize, Formula.size]
      omega
    | compare y op =>
      rw [Level.closeWith, ih]
      simp only [waitingSize, Formula.size]
      omega

/-- Reading keeps the size. -/
theorem size_regroup (w : Layout α) (ws : List (Waiting α)) :
    (w.regroup d ws).size = waitingSize ws + (w.tree d).size := by
  induction w generalizing ws with
  | operand x => exact Level.size_settle ws _
  | null =>
    cases ws with
    | nil => rfl
    | cons u ws =>
      cases u with
      | not => rfl
      | compare y op =>
        cases op <;> simp only [regroup, settleNull, Level.settle, Level.size, waitingSize, tree,
          Formula.size] <;> omega
  | truth b =>
    have hnumber := Level.size_settle ws (.number 1)
    have htruth := Level.size_settle ws (.truth b)
    cases d <;> simp only [regroup, settleTruth, Level.size, tree, truthTree, Formula.size]
      at hnumber htruth ⊢ <;> omega
  | isIn a items ih =>
    have h := ih ws
    simp only [Level.size, regroup, tree, Formula.size] at h ⊢
    omega
  | not a ih =>
    have h := ih []
    rw [← size_close] at h
    simp only [Level.size, regroup, tree, Formula.size, waitingSize] at h ⊢
    omega
  | binary op a b iha ihb =>
    simp only [regroup, tree]
    split
    · have ha := iha []
      have hb := ihb []
      rw [← size_close] at ha hb
      rw [Level.size_settle, size_connect, size_connect, ha, hb]
      simp [waitingSize]
    · have ha := iha ws
      rw [ihb, size_compareTree]
      simp only [Level.size, waitingSize] at ha ⊢
      omega

/-! ## What stays in front -/

/-- Reading uses only the nearest of what waits. -/
theorem regroup_append (w : Layout α) {us : List (Waiting α)} (hne : us ≠ [])
    (ws : List (Waiting α)) :
    w.regroup d (us ++ ws) = ⟨(w.regroup d us).waiting ++ ws, (w.regroup d us).last⟩ := by
  obtain ⟨u, us, rfl⟩ := List.exists_cons_of_ne_nil hne
  have hsettle (x : Formula α) (u : Waiting α) (us : List (Waiting α)) :
      Level.settle (u :: us ++ ws) x =
        ⟨(Level.settle (u :: us) x).waiting ++ ws, (Level.settle (u :: us) x).last⟩ := by
    cases u <;> rfl
  induction w generalizing u us with
  | operand x => exact hsettle _ u us
  | null =>
    cases u with
    | not => rfl
    | compare y op => cases op <;> rfl
  | truth b => cases d <;> cases u <;> rfl
  | isIn a items ih =>
    simp only [regroup, ih u us (by simp)]
  | not a ih => rfl
  | binary op a b iha ihb =>
    simp only [regroup]
    split
    · exact hsettle _ u us
    · rw [iha u us (by simp)]
      exact ihb _ _ (by simp)

/-- If nothing waits behind a layout, it is closed. -/
theorem isClosed_of_waiting {w : Layout α} {ws : List (Waiting α)}
    (h : (w.regroup d ws).waiting = []) : w.isClosed = true := by
  induction w generalizing ws with
  | not => cases h
  | binary op a b iha ihb =>
    simp only [isClosed, Bool.or_eq_true]
    cases hop : op.isLogical with
    | true => exact .inl rfl
    | false =>
      simp only [regroup, hop] at h
      exact .inr (ihb h)
  | _ => rfl

/-- Whether a layout begins with a negation. -/
def startsNot : Layout α → Bool
  | .not _ => true
  | .isIn a _ => a.startsNot
  | .binary op a _ => !op.isLogical && a.startsNot
  | _ => false

/-- A negation at the beginning waits in front of everything else. -/
theorem waiting_of_startsNot {w : Layout α} (h : w.startsNot = true) (ws : List (Waiting α)) :
    ∃ vs, (w.regroup d ws).waiting = vs ++ .not :: ws := by
  induction w with
  | not a => exact ⟨[], rfl⟩
  | isIn a items ih => exact ih h
  | binary op a b iha ihb =>
    simp only [startsNot, Bool.and_eq_true, Bool.not_eq_true'] at h
    obtain ⟨hop, ha⟩ := h
    obtain ⟨vs, hvs⟩ := iha ha
    simp only [regroup, hop, hvs]
    have happend := regroup_append (d := d) b (List.cons_ne_nil (.compare (a.regroup d ws).last op) vs)
      (.not :: ws)
    exact ⟨_, congrArg Level.waiting happend⟩
  | _ => cases h

/-! ## Larger operands -/

/-- Whether the test that is read as the outermost one has a left operand of some size at least. -/
def Widens (n : Nat) (l : Level α) : Prop :=
  (l.waiting = [] ∧ ∃ z, l.last.left? = some z ∧ n ≤ z.size) ∨
    ∃ vs y op, l.waiting = vs ++ [.compare y op] ∧ n < y.size

/-- Whether the test that is read as the outermost one has a left operand of more than some size. -/
def Exceeds (n : Nat) (l : Level α) : Prop :=
  (l.waiting = [] ∧ ∃ z, l.last.left? = some z ∧ n < z.size) ∨
    ∃ vs y op, l.waiting = vs ++ [.compare y op] ∧ n < y.size

/-- A left operand of more than some size is one of that size at least. -/
theorem Exceeds.widens {n : Nat} {l : Level α} (h : Exceeds n l) : Widens n l :=
  h.imp_left fun ⟨hwaiting, z, hz, hn⟩ => ⟨hwaiting, z, hz, hn.le⟩

/-- What waits in front of everything else is the left operand of the outermost test. -/
theorem left_close {l : Level α} {vs : List (Waiting α)} {y : Formula α} {op : BinaryOp}
    (h : l.waiting = vs ++ [.compare y op]) : l.close.left? = some y := by
  rw [Level.close, h, Level.closeWith_append]
  rfl

/-- A level whose test has a large left operand closes as a test with one. -/
theorem Exceeds.left_close {n : Nat} {l : Level α} (h : Exceeds n l) :
    ∃ z, l.close.left? = some z ∧ n < z.size := by
  rcases h with ⟨hwaiting, z, hz, hn⟩ | ⟨vs, y, op, hwaiting, hn⟩
  · refine ⟨z, ?_, hn⟩
    rw [Level.close, hwaiting]
    exact hz
  · exact ⟨y, Layout.left_close hwaiting, hn⟩

/-- Behind an operand that has widened, another comparison widens it further. -/
theorem exceeds_comparison (op : BinaryOp) {n : Nat} {l : Level α} (hl : Widens n l) {b : Layout α}
    (hb : b.startsNot = false → ∀ x op, Widens (x.size) (b.regroup d [.compare x op])) :
    Exceeds n (b.regroup d (.compare l.last op :: l.waiting)) := by
  rcases hl with ⟨hwaiting, z, hz, hn⟩ | ⟨vs, y, op', hwaiting, hn⟩
  · have hlast : n < l.last.size := lt_of_le_of_lt hn (Formula.size_lt_of_left hz)
    rw [hwaiting]
    cases hnot : b.startsNot with
    | true =>
      obtain ⟨vs, hvs⟩ := waiting_of_startsNot (d := d) hnot [.compare l.last op]
      exact .inr ⟨vs ++ [.not], l.last, op, by simp [hvs], hlast⟩
    | false =>
      rcases hb hnot l.last op with ⟨hnone, z', hz', hn'⟩ | ⟨vs, y, op', hvs, hn'⟩
      · exact .inl ⟨hnone, z', hz', hlast.trans_le hn'⟩
      · exact .inr ⟨vs, y, op', hvs, hlast.trans hn'⟩
  · have happend := regroup_append (d := d) b (List.cons_ne_nil (.compare l.last op) vs)
      [.compare y op']
    rw [hwaiting]
    exact .inr ⟨_, y, op', congrArg Level.waiting happend, hn⟩

/-- An operand behind the sign of a comparison is read with the left operand of that comparison, or
with more. -/
theorem widens_settle (x y : Formula α) (op : BinaryOp) :
    Widens x.size (Level.settle [.compare x op] y) :=
  .inl ⟨rfl, x, rfl, le_rfl⟩

/-- What does not begin with a negation takes the operand in front of it, and more than that if it
is not tight. -/
theorem widens_regroup {w : Layout α} (h : w.startsNot = false) (x : Formula α) (op : BinaryOp) :
    Widens x.size (w.regroup d [.compare x op]) ∧
      (w.isTight d = false → Exceeds x.size (w.regroup d [.compare x op])) := by
  induction w generalizing x op with
  | operand y => exact ⟨widens_settle x _ op, nofun⟩
  | null =>
    refine ⟨.inl ⟨?_, x, ?_, le_rfl⟩, nofun⟩ <;> cases op <;> rfl
  | truth b =>
    have hexceeds : Exceeds x.size (⟨[], .compare .eq (.compare op x (.number 1))
        (.number (if b then 1 else 0))⟩ : Level α) := by
      refine .inl ⟨rfl, _, rfl, ?_⟩
      simp only [Formula.size]
      omega
    cases d with
    | postgres => exact ⟨widens_settle x _ op, by simp [isTight]⟩
    | _ => exact ⟨hexceeds.widens, fun _ => hexceeds⟩
  | isIn a items ih =>
    have hexceeds : Exceeds x.size (regroup d (.isIn a items) [.compare x op]) := by
      rcases (ih h x op).1 with ⟨hwaiting, z, hz, hn⟩ | hwaiting
      · exact .inl ⟨hwaiting, _, rfl, lt_of_le_of_lt hn (Formula.size_lt_of_left hz)⟩
      · exact .inr hwaiting
    exact ⟨hexceeds.widens, fun _ => hexceeds⟩
  | not => cases h
  | binary op' a b iha ihb =>
    cases hop : op'.isLogical with
    | true =>
      simp only [regroup, hop, isTight, if_true]
      exact ⟨widens_settle x _ op, by simp⟩
    | false =>
      have ha : a.startsNot = false := by simpa [startsNot, hop] using h
      have hexceeds := exceeds_comparison (d := d) op' (iha ha x op).1 fun hb x op =>
        (ihb hb x op).1
      simp only [regroup, hop]
      exact ⟨hexceeds.widens, fun _ => hexceeds⟩

/-! ## Misreadings -/

/-- The left operand of a comparison is the one it was made with. -/
theorem left_compareTree (op : BinaryOp) (x : Formula α) (b : Layout α) (y : Formula α) :
    (compareTree op x b y).left? = some x := by
  unfold compareTree
  split <;> rfl

/-- If something waits behind a layout, the outermost test is read within it. -/
theorem close_of_waiting {w : Layout α} (h : (w.regroup d []).waiting ≠ []) (us : List (Waiting α))
    (y : Formula α) {z : Formula α}
    (hz : (Level.closeWith (us ++ (w.regroup d []).waiting) y).left? = some z) :
    z.size < (w.tree d).size := by
  have hsize := size_regroup (d := d) w []
  obtain ⟨ws, u, hws⟩ := (List.eq_nil_or_concat _).resolve_left h
  rw [List.concat_eq_append] at hws
  rw [hws, ← List.append_assoc, Level.closeWith_append] at hz
  rw [Level.size, hws, waitingSize_append] at hsize
  cases u with
  | not => cases hz
  | compare v op =>
    obtain rfl : v = z := Option.some.inj hz
    simp only [waitingSize] at hsize
    omega

/-- A layout that is neither a single operand nor in parentheses is meant as a test with a left
operand. -/
theorem left_tree_of_isTight {w : Layout α} (h : w.isTight d = false) :
    ∃ z, (w.tree d).left? = some z := by
  cases w with
  | truth b =>
    cases d with
    | postgres => cases h
    | _ => exact ⟨_, rfl⟩
  | isIn a items => exact ⟨_, rfl⟩
  | binary op a b =>
    have hop : op.isLogical = false := h
    simp only [tree, hop]
    exact ⟨_, left_compareTree op _ b _⟩
  | _ => cases h

/-- Behind the sign of a comparison, only what is tight is read as its right operand. Anything else
is read with a wider left operand, or as a negation where a test was meant. -/
theorem isTight_of_close {w : Layout α} {op : BinaryOp} {x z : Formula α} (hsize : x.size = z.size)
    (h : (w.regroup d [.compare x op]).close = compareTree op z w (w.tree d)) :
    w.isTight d = true := by
  cases htight : w.isTight d with
  | true => rfl
  | false =>
    exfalso
    cases hnot : w.startsNot with
    | false =>
      obtain ⟨y, hy, hlt⟩ := ((widens_regroup hnot x op).2 htight).left_close
      rw [h, left_compareTree] at hy
      cases hy
      omega
    | true =>
      obtain ⟨vs, hvs⟩ := waiting_of_startsNot (d := d) hnot [.compare x op]
      obtain ⟨y, hy⟩ := left_tree_of_isTight htight
      have hnull : w ≠ .null := by
        rintro rfl
        cases hnot
      rw [Level.close, hvs, Level.closeWith_append, compareTree_of_ne_null fun _ => hnull] at h
      rw [← (Formula.compare.inj h).2.2] at hy
      cases hy

/-- A comparison is read as it is meant only if both of its operands are. -/
theorem compareTree_inj {op : BinaryOp} {b : Layout α} {x x' : Formula α}
    (h : compareTree op x b (b.reading d) = compareTree op x' b (b.tree d)) :
    x = x' ∧ b.reading d = b.tree d := by
  have hleft := congrArg Formula.left? h
  rw [left_compareTree, left_compareTree] at hleft
  refine ⟨Option.some.inj hleft, ?_⟩
  by_cases hnull : b = .null
  · rw [hnull]
    rfl
  · rw [compareTree_of_ne_null fun _ => hnull, compareTree_of_ne_null fun _ => hnull] at h
    exact (Formula.compare.inj h).2.2

/-- A layout is read as it is meant if and only if its comparisons are grouped. -/
theorem reading_eq_tree_iff {w : Layout α} : w.reading d = w.tree d ↔ w.isGrouped d = true := by
  refine ⟨fun h => ?_, reading_of_isGrouped⟩
  induction w with
  | operand | null | truth => rfl
  | isIn a items ih =>
    have hclose : Level.closeWith (a.regroup d []).waiting (.isIn (a.regroup d []).last items) =
        .isIn (a.tree d) items := h
    by_cases hwaiting : (a.regroup d []).waiting = []
    · rw [hwaiting] at hclose
      have hlast := (Formula.isIn.inj hclose).1
      have ha : a.reading d = a.tree d := by
        rw [reading, Level.close, hwaiting]
        exact hlast
      simp only [isGrouped, ih ha, isClosed_of_waiting hwaiting, Bool.and_self]
    · -- the operand would be smaller than it is
      exact absurd (close_of_waiting hwaiting [] _ (congrArg Formula.left? hclose)) (lt_irrefl _)
  | not a ih => exact ih (Formula.not.inj h)
  | binary op a b iha ihb =>
    cases hop : op.isLogical with
    | true =>
      have hconnect : connect op (a.reading d) (b.reading d) = connect op (a.tree d) (b.tree d) := by
        simp only [tree, hop, if_true] at h
        rw [← h]
        simp only [reading, regroup, hop, if_true]
        rfl
      have hparts : a.reading d = a.tree d ∧ b.reading d = b.tree d := by
        unfold connect at hconnect
        split at hconnect
        · exact Formula.and.inj hconnect
        · exact Formula.or.inj hconnect
      simp only [isGrouped, iha hparts.1, ihb hparts.2, hop, Bool.and_self, Bool.true_or]
    | false =>
      have hclose : (b.regroup d (.compare (a.regroup d []).last op ::
          (a.regroup d []).waiting)).close = compareTree op (a.tree d) b (b.tree d) := by
        simpa only [reading, regroup, tree, hop, Bool.false_eq_true, if_false] using h
      by_cases hwaiting : (a.regroup d []).waiting = []
      · have hlast : (a.regroup d []).last = a.reading d := by
          rw [reading, Level.close, hwaiting]
          rfl
        have hsize : (a.regroup d []).last.size = (a.tree d).size := by
          have hsize := size_regroup (d := d) a []
          simpa [Level.size, hwaiting, waitingSize] using hsize
        rw [hwaiting] at hclose
        have htight := isTight_of_close hsize hclose
        rw [(regroup_of_isTight htight op _).1] at hclose
        obtain ⟨ha, hb⟩ := compareTree_inj hclose
        rw [hlast] at ha
        simp only [isGrouped, iha ha, ihb hb, isClosed_of_waiting hwaiting, htight, Bool.and_self,
          Bool.or_true]
      · -- here too, since what waits in front of everything else stays there
        have hleft := congrArg Formula.left? hclose
        rw [← List.singleton_append, regroup_append b (by simp), left_compareTree] at hleft
        exact absurd (close_of_waiting hwaiting _ _ hleft) (lt_irrefl _)

end Layout

end SqlCompose.Sql
