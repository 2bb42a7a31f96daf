import SqlCompose.Error

/-!
# Runs of operations

An operation on a state ends with a result, fails with an error, or breaks off. Whatever its end,
the state that it has reached remains. Operations after one that has not ended with a result are
left out.
-/

namespace SqlCompose

/-- How an operation ends. -/
inductive Outcome (α : Type) where
  /-- With a result. -/
  | done (a : α)
  /-- With an error. -/
  | failed (e : QueryError)
  /-- It breaks off, in the middle of what it was doing. -/
  | broken

/-- The outcome of a computation that may fail. -/
def Outcome.ofExcept {α : Type} : Except QueryError α → Outcome α
  | .ok a => .done a
  | .error e => .failed e

/-- An operation on a state. -/
def Run (σ α : Type) : Type := σ → Outcome α × σ

namespace Run

variable {σ α β : Type}

/-- The operation that does nothing and has a result. -/
def done (a : α) : Run σ α := fun s => (.done a, s)

/-- One operation, and another one with its result. -/
def andThen (x : Run σ α) (f : α → Run σ β) : Run σ β := fun s =>
  match x s with
  | (.done a, s) => f a s
  | (.failed e, s) => (.failed e, s)
  | (.broken, s) => (.broken, s)

instance : Monad (Run σ) where
  pure := done
  bind := andThen

/-- The operation that does nothing and fails. -/
def fail (e : QueryError) : Run σ α := fun s => (.failed e, s)

/-- The operation that does nothing and has this outcome. -/
def ofOutcome (o : Outcome α) : Run σ α := fun s => (o, s)

/-- The operation that does nothing and has the result of a computation. -/
def lift (r : Except QueryError α) : Run σ α := ofOutcome (.ofExcept r)

/-- An operation whose failure counts as no result. -/
def ignoringFailure (x : Run σ Unit) : Run σ Unit := fun s =>
  match x s with
  | (.failed _, s) => (.done (), s)
  | r => r

end Run

end SqlCompose
