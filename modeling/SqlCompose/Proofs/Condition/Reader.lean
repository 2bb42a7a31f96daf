import SqlCompose.Proofs.Condition.Lexeme
import SqlCompose.Proofs.Condition.Truth

/-!
# Reading conditions

A condition is read from left to right, one lexeme at a time. In every parenthesis the reader keeps
the part in front of the last `OR`, the conjunction behind it and the negations that wait for their
operand; a closing parenthesis puts them together. So a disjunction binds least, a conjunction
more, a negation more than that, and comparisons, null tests and membership tests bind most.
-/

namespace SqlCompose.Sql

/-! ## States -/

/-- What is read at one depth of parentheses. -/
structure Depth where
  /-- The condition in front of the last `OR`. -/
  disjuncts : Option Condition
  /-- The conjunction behind it. -/
  conjuncts : Option Condition
  /-- How many negations wait for their operand. -/
  negations : Nat
deriving DecidableEq

namespace Depth

/-- Nothing has been read. -/
def fresh : Depth := ⟨none, none, 0⟩

/-- The conjunction that ends with a condition. -/
def conjunction (l : Depth) (c : Condition) : Condition := (l.conjuncts.map (.and · c)).getD c

/-- The condition that ends with a condition. -/
def condition (l : Depth) (c : Condition) : Condition :=
  (l.disjuncts.map (.or · (l.conjunction c))).getD (l.conjunction c)

end Depth

/-- What has been read of a comparison or a test. -/
inductive Stage where
  /-- Nothing. -/
  | start
  /-- An operand. -/
  | operand (x : Term)
  /-- An operand and the sign of a comparison. -/
  | compared (x : Term) (op : BinaryOp)
  /-- An operand and `IS`, or `IS NOT`. -/
  | tested (x : Term) (negated : Bool)
  /-- An operand and `IN`. -/
  | member (x : Term)
  /-- Items of a membership test, where another item follows. -/
  | items (x : Term) (items : List Term)
  /-- Items of a membership test, where a comma or a parenthesis follows. -/
  | listed (x : Term) (items : List Term)
  /-- All of it. -/
  | done (c : Condition)
deriving DecidableEq

/-- A state of the reader. -/
structure State where
  /-- The depths further out, from the nearest. -/
  outer : List Depth
  /-- The depth of the next lexeme. -/
  depth : Depth
  /-- What has been read there. -/
  stage : Stage
deriving DecidableEq

/-- A condition negated several times. -/
def negated : Nat → Condition → Condition
  | 0, c => c
  | n + 1, c => negated n (.not c)

/-- The state in which a condition has been read together with its negations. -/
def State.completed (outer : List Depth) (l : Depth) (c : Condition) : State :=
  ⟨outer, { l with negations := 0 }, .done (negated l.negations c)⟩

/-! ## Reading -/

/-- The operand that a lexeme is. -/
def Lexeme.term? : Lexeme → Option Term
  | .name s => some (.column s)
  | .param index => some (.param index)
  | .number n => some (.number n)
  | .null => some .null
  | _ => none

/-- Read a lexeme. -/
def State.read (s : State) (x : Lexeme) : Option State :=
  match s.stage, x with
  | .start, .not => some { s with depth := { s.depth with negations := s.depth.negations + 1 } }
  | .start, .openParen => some ⟨s.depth :: s.outer, .fresh, .start⟩
  | .start, .truth b => some (.completed s.outer s.depth (.truth b))
  | .start, x => x.term?.map fun t => { s with stage := .operand t }
  | .operand t, .op op => if op.isLogical then none else some { s with stage := .compared t op }
  | .operand t, .is => some { s with stage := .tested t false }
  | .operand t, .in => some { s with stage := .member t }
  | .compared t op, x => x.term?.map fun u => .completed s.outer s.depth (.compare op t u)
  | .tested t false, .not => some { s with stage := .tested t true }
  | .tested t false, .null => some (.completed s.outer s.depth (.isNull t))
  | .tested t true, .null => some (.completed s.outer s.depth (.isNotNull t))
  | .member t, .openParen => some { s with stage := .items t [] }
  | .items t us, x => x.term?.map fun u => { s with stage := .listed t (us ++ [u]) }
  | .listed t us, .comma => some { s with stage := .items t us }
  | .listed t us, .closeParen => some (.completed s.outer s.depth (.isIn t us))
  | .done c, .op .and =>
    some ⟨s.outer, { s.depth with conjuncts := some (s.depth.conjunction c) }, .start⟩
  | .done c, .op .or =>
    some ⟨s.outer, ⟨some (s.depth.condition c), none, 0⟩, .start⟩
  | .done c, .closeParen =>
    match s.outer with
    | [] => none
    | l :: outer => some (.completed outer l (s.depth.condition c))
  | _, _ => none

/-- The condition that has been read, if nothing is missing. -/
def State.condition? : State → Option Condition
  | ⟨[], l, .done c⟩ => some (l.condition c)
  | _ => none

/-- Read several lexemes. -/
def State.run (s : State) (xs : List Lexeme) : Option State := xs.foldlM State.read s

/-- The state before anything has been read. -/
def State.initial : State := ⟨[], .fresh, .start⟩

@[simp] theorem run_nil (s : State) : s.run [] = some s := rfl

@[simp] theorem run_cons (s : State) (x : Lexeme) (xs : List Lexeme) :
    s.run (x :: xs) = (s.read x).bind fun s => s.run xs := rfl

/-- The condition that lexemes are read as. -/
def conditionOf? (xs : List Lexeme) : Option Condition :=
  (State.initial.run xs).bind State.condition?

end SqlCompose.Sql

namespace SqlCompose

/-- The condition that a text is read as. -/
def Dialect.readCondition (d : Dialect) (text : String) : Option Sql.Condition :=
  Sql.conditionOf? (Sql.lexemes d text)

/-- Conjunctions bind more than disjunctions, and negations more than both. -/
example : Dialect.mySql.readCondition "? = 0 OR NOT ? IS NULL AND (? < 1 OR ? IN (?, 2)) AND TRUE" =
    some (.or (.compare .eq (.param 0) (.number 0))
      (.and (.and (.not (.isNull (.param 1)))
        (.or (.compare .lt (.param 2) (.number 1)) (.isIn (.param 3) [.param 4, .number 2])))
        (.truth true))) := by decide +kernel

end SqlCompose
