import SqlCompose.Proofs.Condition.Reader
import SqlCompose.Proofs.Formula.Value

/-!
# Reading formulas

A formula is read from left to right, one lexeme at a time. Comparisons, null tests and membership
tests bind most and are read from left to right; a negation takes all of them that follow, then
come conjunctions and disjunctions. What stands in front of an operand that is still missing waits
for it (`Sql.Waiting`), and is put together with what has been read at a connective, at a closing
parenthesis and at the end.
-/

namespace SqlCompose.Sql

/-! ## What waits -/

/-- The part of a formula in front of an operand that is missing. -/
inductive Waiting (α : Type) where
  | not
  | compare (x : Formula α) (op : BinaryOp)
deriving DecidableEq

/-- The last formula that has been read between connectives, and what waits for it. -/
structure Level (α : Type) where
  waiting : List (Waiting α)
  last : Formula α
deriving DecidableEq

namespace Level

variable {α : Type}

/-- A formula is the right operand of a comparison that waits. -/
def settle : List (Waiting α) → Formula α → Level α
  | .compare y op :: ws, x => ⟨ws, .compare op y x⟩
  | ws, x => ⟨ws, x⟩

/-- A formula put together with what waits, from the nearest on. -/
def closeWith : List (Waiting α) → Formula α → Formula α
  | [], x => x
  | .not :: ws, x => closeWith ws (.not x)
  | .compare y op :: ws, x => closeWith ws (.compare op y x)

/-- The formula of a level. -/
def close (l : Level α) : Formula α := closeWith l.waiting l.last

end Level

/-! ## States -/

/-- What is read at one depth of parentheses. -/
structure Nesting where
  /-- The formula in front of the last `OR`. -/
  disjuncts : Option (Formula Term)
  /-- The conjunction behind it. -/
  conjuncts : Option (Formula Term)
  /-- What waits behind the last connective. -/
  waiting : List (Waiting Term)
deriving DecidableEq

namespace Nesting

/-- Nothing has been read. -/
def fresh : Nesting := ⟨none, none, []⟩

/-- The conjunction that ends with a formula. -/
def conjunction (n : Nesting) (x : Formula Term) : Formula Term :=
  (n.conjuncts.map (.and · (Level.closeWith n.waiting x))).getD (Level.closeWith n.waiting x)

/-- The formula that ends with a formula. -/
def formula (n : Nesting) (x : Formula Term) : Formula Term :=
  (n.disjuncts.map (.or · (n.conjunction x))).getD (n.conjunction x)

end Nesting

/-- What has been read behind the last operator. -/
inductive Phase where
  /-- Nothing. -/
  | start
  /-- A formula. -/
  | done (x : Formula Term)
  /-- A formula and `IS`, or `IS NOT`. -/
  | tested (x : Formula Term) (negated : Bool)
  /-- A formula and `IN`. -/
  | member (x : Formula Term)
  /-- Items of a membership test, where another item follows. -/
  | items (x : Formula Term) (items : List Term)
  /-- Items of a membership test, where a comma or a parenthesis follows. -/
  | listed (x : Formula Term) (items : List Term)
deriving DecidableEq

/-- A state of the reader. -/
structure Scan where
  /-- The depths further out, from the nearest. -/
  outer : List Nesting
  /-- The depth of the next lexeme. -/
  nesting : Nesting
  /-- What has been read there. -/
  phase : Phase
deriving DecidableEq

namespace Scan

/-- The state in which the formula of a level has been read. -/
def behind (outer : List Nesting) (n : Nesting) (l : Level Term) : Scan :=
  ⟨outer, { n with waiting := l.waiting }, .done l.last⟩

/-- The state in which an operand has been read. -/
def settled (outer : List Nesting) (n : Nesting) (x : Formula Term) : Scan :=
  behind outer n (Level.settle n.waiting x)

end Scan

/-! ## Reading -/

/-- An operand as a formula. -/
def Term.formula : Term → Formula Term
  | .number n => .number n
  | .null => .null
  | x => .operand x

namespace Scan

/-- Read a lexeme. -/
def read (s : Scan) (x : Lexeme) : Option Scan :=
  match s.phase, x with
  | .start, .not => some { s with nesting := { s.nesting with waiting := .not :: s.nesting.waiting } }
  | .start, .openParen => some ⟨s.nesting :: s.outer, .fresh, .start⟩
  | .start, .truth b => some (settled s.outer s.nesting (.truth b))
  | .start, x => x.term?.map fun t => settled s.outer s.nesting t.formula
  | .done x, .op .and =>
    some ⟨s.outer, ⟨s.nesting.disjuncts, some (s.nesting.conjunction x), []⟩, .start⟩
  | .done x, .op .or => some ⟨s.outer, ⟨some (s.nesting.formula x), none, []⟩, .start⟩
  | .done x, .op op =>
    some ⟨s.outer, { s.nesting with waiting := .compare x op :: s.nesting.waiting }, .start⟩
  | .done x, .is => some { s with phase := .tested x false }
  | .done x, .in => some { s with phase := .member x }
  | .done x, .closeParen =>
    match s.outer with
    | [] => none
    | n :: outer => some (settled outer n (s.nesting.formula x))
  | .tested x false, .not => some { s with phase := .tested x true }
  | .tested x negated, .null => some { s with phase := .done (.isNull negated x) }
  | .member x, .openParen => some { s with phase := .items x [] }
  | .items x us, y => y.term?.map fun u => { s with phase := .listed x (us ++ [u]) }
  | .listed x us, .comma => some { s with phase := .items x us }
  | .listed x us, .closeParen => some { s with phase := .done (.isIn x us) }
  | _, _ => none

/-- The formula that has been read, if nothing is missing. -/
def formula? : Scan → Option (Formula Term)
  | ⟨[], n, .done x⟩ => some (n.formula x)
  | _ => none

/-- Read several lexemes. -/
def run (s : Scan) (xs : List Lexeme) : Option Scan := xs.foldlM read s

/-- The state before anything has been read. -/
def initial : Scan := ⟨[], .fresh, .start⟩

@[simp] theorem run_nil (s : Scan) : s.run [] = some s := rfl

@[simp] theorem run_cons (s : Scan) (x : Lexeme) (xs : List Lexeme) :
    s.run (x :: xs) = (s.read x).bind fun s => s.run xs := rfl

end Scan

/-- The formula that lexemes are read as. -/
def formulaOf? (xs : List Lexeme) : Option (Formula Term) :=
  (Scan.initial.run xs).bind Scan.formula?

end SqlCompose.Sql

namespace SqlCompose

/-- The formula that a text is read as. -/
def Dialect.readFormula (d : Dialect) (text : String) : Option (Sql.Formula Sql.Term) :=
  Sql.formulaOf? (Sql.lexemes d text)

/-- Comparisons are read from left to right, and a negation takes those behind it. -/
example : Dialect.mySql.readFormula "NOT ? = 1 IS NULL OR (? = NOT ? < 2) AND ? IN (?, 3)" =
    some (.or (.not (.isNull false (.compare .eq (.operand (.param 0)) (.number 1))))
      (.and (.compare .eq (.operand (.param 1))
        (.not (.compare .lt (.operand (.param 2)) (.number 2))))
        (.isIn (.operand (.param 3)) [.param 4, .number 3]))) := by decide +kernel

end SqlCompose
