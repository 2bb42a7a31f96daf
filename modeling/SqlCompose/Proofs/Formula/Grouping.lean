import SqlCompose.Proofs.Formula.Regrouping

/-!
# Layouts that are read as they are meant

How the parts of a layout are put together does not depend on its operands
(`Sql.Layout.reading_map`). A layout is read as it is meant if no comparison has on its right
another test without parentheses, and on its left a negation that takes what stands behind it
(`Sql.Layout.reading_of_isGrouped`).
-/

namespace SqlCompose.Sql

variable {α β : Type}

/-! ## Other operands -/

/-- What waits, over other operands. -/
def Waiting.map (f : α → β) : Waiting α → Waiting β
  | .not => .not
  | .compare x op => .compare (x.map f) op

namespace Level

/-- A level over other operands. -/
def map (f : α → β) (l : Level α) : Level β := ⟨l.waiting.map (.map f), l.last.map f⟩

/-- Settling an operand does not look into it. -/
theorem settle_map (f : α → β) (ws : List (Waiting α)) (x : Formula α) :
    settle (ws.map (.map f)) (x.map f) = (settle ws x).map f := by
  cases ws with
  | nil => rfl
  | cons w ws => cases w <;> rfl

/-- Closing what waits does not look into the operands. -/
theorem closeWith_map (f : α → β) (ws : List (Waiting α)) (x : Formula α) :
    closeWith (ws.map (.map f)) (x.map f) = (closeWith ws x).map f := by
  induction ws generalizing x with
  | nil => rfl
  | cons w ws ih =>
    cases w with
    | not => exact ih (.not x)
    | compare y op => exact ih (.compare op y x)

/-- The formula of a level does not depend on what its operands are. -/
theorem close_map (f : α → β) (l : Level α) : (l.map f).close = l.close.map f :=
  closeWith_map f l.waiting l.last

end Level

namespace Layout

variable {d : Dialect}

/-- Settling the null literal does not look into the operands. -/
theorem settleNull_map (f : α → β) (ws : List (Waiting α)) :
    settleNull (ws.map (.map f)) = (settleNull ws).map f := by
  cases ws with
  | nil => rfl
  | cons w ws =>
    cases w with
    | not => rfl
    | compare y op => cases op <;> rfl

/-- Settling a truth value does not look into the operands. -/
theorem settleTruth_map (f : α → β) (d : Dialect) (b : Bool) (ws : List (Waiting α)) :
    settleTruth d b (ws.map (.map f)) = (settleTruth d b ws).map f := by
  cases ws with
  | nil => cases d <;> rfl
  | cons w ws => cases d <;> cases w <;> rfl

/-- How a layout is regrouped does not depend on what its operands are. -/
theorem regroup_map (f : α → β) (w : Layout α) (ws : List (Waiting α)) :
    (w.map f).regroup d (ws.map (.map f)) = (w.regroup d ws).map f := by
  induction w generalizing ws with
  | operand x => exact Level.settle_map f ws (.operand x)
  | null => exact settleNull_map f ws
  | truth b => exact settleTruth_map f d b ws
  | isIn a items ih =>
    simp only [map, regroup, ih]
    rfl
  | not a ih =>
    have h := ih []
    rw [List.map_nil] at h
    simp only [map, regroup, h, Level.close_map]
    rfl
  | binary op a b iha ihb =>
    simp only [map, regroup]
    split
    · have ha := iha []
      have hb := ihb []
      rw [List.map_nil] at ha hb
      have hconnect : (connect op (a.regroup d []).close (b.regroup d []).close).map f =
          connect op ((a.regroup d []).close.map f) ((b.regroup d []).close.map f) := by
        unfold connect
        split <;> rfl
      rw [ha, hb, Level.close_map, Level.close_map, ← hconnect, Level.settle_map]
    · rw [iha, ← ihb]
      rfl

/-- A layout over other operands is read with the same grouping. -/
theorem reading_map (f : α → β) (w : Layout α) : (w.map f).reading d = (w.reading d).map f := by
  have h := regroup_map (d := d) f w []
  rw [List.map_nil] at h
  rw [reading, h, Level.close_map, reading]

/-! ## Grouping -/

/-- The predicate that holds always, or never, as it is meant. -/
def truthTree (d : Dialect) (b : Bool) : Formula α :=
  match d with
  | .postgres => .truth b
  | _ => .compare .eq (.number 1) (.number (if b then 1 else 0))

/-- A comparison with a layout on its right as it is meant. -/
def compareTree (op : BinaryOp) (x : Formula α) (b : Layout α) (y : Formula α) : Formula α :=
  match op, b with
  | .eq, .null => .isNull false x
  | .ne, .null => .isNull true x
  | op, _ => .compare op x y

/-- A comparison with something other than the null literal is meant as a comparison. -/
theorem compareTree_of_ne_null {op : BinaryOp} {b : Layout α}
    (h : op.isEquality = true → b ≠ .null) (x y : Formula α) :
    compareTree op x b y = .compare op x y := by
  unfold compareTree
  split
  · exact absurd rfl (h rfl)
  · exact absurd rfl (h rfl)
  · rfl

/-- The formula that a layout is meant as. -/
def tree (d : Dialect) : Layout α → Formula α
  | .operand x => .operand x
  | .null => .null
  | .truth b => truthTree d b
  | .isIn a items => .isIn (a.tree d) items
  | .not a => .not (a.tree d)
  | .binary op a b =>
    if op.isLogical then connect op (a.tree d) (b.tree d)
    else compareTree op (a.tree d) b (b.tree d)

/-- Whether a layout does not end with a negation, which takes what stands behind it. -/
def isClosed : Layout α → Bool
  | .not _ => false
  | .binary op _ b => op.isLogical || b.isClosed
  | _ => true

/-- Whether a layout is a single operand, or stands in parentheses. -/
def isTight (d : Dialect) : Layout α → Bool
  | .operand _ | .null | .not _ => true
  | .truth _ => d == .postgres
  | .isIn _ _ => false
  | .binary op _ _ => op.isLogical

/-- Whether each comparison has on its right a single operand or something in parentheses, and on
its left nothing that takes what stands behind it. -/
def isGrouped (d : Dialect) : Layout α → Bool
  | .isIn a _ => a.isGrouped d && a.isClosed
  | .not a => a.isGrouped d
  | .binary op a b =>
    a.isGrouped d && b.isGrouped d && (op.isLogical || a.isClosed && b.isTight d)
  | _ => true

/-- Whether a layout ends with a negation does not depend on its operands. -/
theorem isClosed_map (f : α → β) (w : Layout α) : (w.map f).isClosed = w.isClosed := by
  induction w with
  | binary op a b iha ihb => simp only [map, isClosed, ihb]
  | _ => rfl

/-- Whether a layout is a single operand does not depend on which one. -/
theorem isTight_map (f : α → β) (w : Layout α) : (w.map f).isTight d = w.isTight d := by
  cases w <;> rfl

/-- Whether the comparisons of a layout are grouped does not depend on its operands. -/
theorem isGrouped_map (f : α → β) (w : Layout α) : (w.map f).isGrouped d = w.isGrouped d := by
  induction w with
  | isIn a items ih => simp only [map, isGrouped, ih, isClosed_map]
  | not a ih => exact ih
  | binary op a b iha ihb => simp only [map, isGrouped, iha, ihb, isClosed_map, isTight_map]
  | _ => rfl

/-- Behind the sign of a comparison, what is tight is its right operand. -/
theorem regroup_of_isTight {w : Layout α} (htight : w.isTight d = true) (op : BinaryOp)
    (x : Formula α) :
    (w.regroup d [.compare x op]).close = compareTree op x w (w.reading d) ∧
      (w.isClosed = true → (w.regroup d [.compare x op]).waiting = []) := by
  have hsettled (hnull : w ≠ .null) (hsettle :
      w.regroup d [.compare x op] = ⟨[], .compare op x (w.reading d)⟩) :
      (w.regroup d [.compare x op]).close = compareTree op x w (w.reading d) ∧
        (w.isClosed = true → (w.regroup d [.compare x op]).waiting = []) := by
    rw [hsettle, compareTree_of_ne_null fun _ => hnull]
    exact ⟨rfl, fun _ => rfl⟩
  cases w with
  | operand y => exact hsettled nofun rfl
  | null => cases op <;> exact ⟨rfl, fun _ => rfl⟩
  | truth b =>
    obtain rfl : d = .postgres := by simpa [isTight] using htight
    exact hsettled nofun rfl
  | isIn => cases htight
  | not a =>
    have hnull : Layout.not a ≠ .null := nofun
    rw [compareTree_of_ne_null fun _ => hnull]
    exact ⟨rfl, nofun⟩
  | binary op' a b =>
    refine hsettled nofun ?_
    simp only [isTight] at htight
    simp only [reading, regroup, htight, if_true]
    rfl

/-- If nothing waits, all that has been read is the last formula. -/
theorem last_eq_tree {l : Level α} {x : Formula α} (hclose : l.close = x) (hwaiting : l.waiting = []) :
    l.last = x := by
  rw [Level.close, hwaiting] at hclose
  exact hclose

/-- A layout whose comparisons are grouped is read as it is meant. -/
theorem regroup_of_isGrouped {w : Layout α} (h : w.isGrouped d = true) :
    (w.regroup d []).close = w.tree d ∧ (w.isClosed = true → (w.regroup d []).waiting = []) := by
  induction w with
  | operand | null => exact ⟨rfl, fun _ => rfl⟩
  | truth b => cases d <;> exact ⟨rfl, fun _ => rfl⟩
  | isIn a items ih =>
    obtain ⟨ha, hclosed⟩ := Bool.and_eq_true_iff.mp h
    obtain ⟨hleft, hwaiting⟩ := ih ha
    have hlast := last_eq_tree hleft (hwaiting hclosed)
    simp only [regroup, tree, hlast, hwaiting hclosed]
    exact ⟨rfl, fun _ => trivial⟩
  | not a ih =>
    refine ⟨?_, by simp [isClosed]⟩
    exact congrArg Formula.not (ih h).1
  | binary op a b iha ihb =>
    simp only [isGrouped, Bool.and_eq_true, Bool.or_eq_true] at h
    obtain ⟨⟨ha, hb⟩, hsides⟩ := h
    cases hop : op.isLogical with
    | true =>
      simp only [regroup, tree, hop, if_true, (iha ha).1, (ihb hb).1]
      exact ⟨rfl, fun _ => rfl⟩
    | false =>
      obtain ⟨hclosed, htight⟩ := hsides.resolve_left (by simp [hop])
      obtain ⟨hleft, hwaiting⟩ := iha ha
      have hlast := last_eq_tree hleft (hwaiting hclosed)
      have hright := regroup_of_isTight htight op (a.tree d)
      rw [reading, (ihb hb).1] at hright
      simp only [regroup, tree, hop, hlast, hwaiting hclosed]
      refine ⟨hright.1, fun hend => hright.2 ?_⟩
      simpa [isClosed, hop] using hend

/-- A grouped layout is read as it is meant. -/
theorem reading_of_isGrouped {w : Layout α} (h : w.isGrouped d = true) :
    w.reading d = w.tree d := (regroup_of_isGrouped h).1

end Layout

end SqlCompose.Sql
