import SqlCompose.Proofs.Paging.Recorded
import SqlCompose.Proofs.Session.Batch
import SqlCompose.Proofs.Session.Discipline

/-!
# Refused queries

A query is compiled before the connection is held, let alone opened. If it is refused, the error is
one of compilation (`Dialect.isCompileError_compile`), and the operation fails with it and leaves
everything as it was: the connection, the journal of its calls, and whether it can be used
(`Operation.perform_of_refused`). Nothing is asked of the connection for that, so the law holds in
all of its states.
-/

namespace SqlCompose

variable {σ : Type} {fault : QueryError}

/-! ## Errors of compilation -/

namespace Dialect

variable {d : Dialect} {e : Entity}

/-- The plan of a query fails only by refusing it. -/
theorem onlyRefuses_planQuery (d : Dialect) (e : Entity) (root : Expr) :
    OnlyRefuses (d.planQuery e root) := by
  unfold planQuery
  intro fault hfault
  cases hdraft : Query.draft e root with
  | error found =>
    rw [hdraft] at hfault
    obtain rfl : found = fault := Except.error.inj hfault
    exact Query.onlyRefuses_visit false root Draft.empty found hdraft
  | ok draft =>
    rw [hdraft] at hfault
    cases hfault

/-- A query that is not compiled was refused, or lacks an ordering. -/
theorem isCompileError_compile {root : Expr} (h : d.compile e root = .error fault) :
    fault.isCompileError = true := by
  rcases bind_eq_error.mp h with hplan | ⟨t, -, hrender⟩
  · exact QueryError.isCompileError_of_isRefusal (d.onlyRefuses_planQuery e root fault hplan)
  · rcases bind_eq_error.mp hrender with hform | ⟨form, -, hwritten⟩
    · rw [(pageForm_eq_error.mp hform).1]
      rfl
    · cases hwritten

end Dialect

/-! ## Operations that compile -/

namespace Run

variable {α β : Type}

/-- What goes on with the result of an operation is left out if it has failed. -/
theorem bind_of_failed {x : Run σ α} {s s' : σ} (h : x s = (.failed fault, s')) (f : α → Run σ β) :
    (x >>= f) s = (.failed fault, s') := by
  show andThen x f s = _
  unfold andThen
  rw [h]

/-- What needs the result of a computation that has failed does nothing. -/
theorem lift_bind_of_error {x : Except QueryError α} (hx : x = .error fault) (f : α → Run σ β)
    (s : σ) : (lift x >>= f) s = (.failed fault, s) := by
  apply bind_of_failed
  rw [hx]
  rfl

/-- What needs the result of a computation goes on with it. -/
theorem lift_bind_of_ok {x : Except QueryError α} {a : α} (hx : x = .ok a) (f : α → Run σ β)
    (s : σ) : (lift x >>= f) s = f a s := by
  rw [hx]
  rfl

end Run

/-- What is asked of a batch in front of its statement: the names of the columns to change, and
then the predicate. -/
def Batch.compilation (r : Repository σ) (predicate : Expr) (b : Batch) :
    Except QueryError Unit := do
  let _ ← b.command r
  let _ ← r.dialect.planFilter r.entity predicate.toLambda b.bound
  .ok ()

namespace Operation

/-- What an operation compiles: the query of a handle with the last step that the operation adds to
it, or the names and the predicate of a batch. A batch without assignments compiles nothing, nor
does an operation that is given its statement or finds rows by their key. -/
def compilation (r : Repository σ) : Operation → Except QueryError Unit
  | .toList h => do
    let _ ← h.build r.dialect
    .ok ()
  | .one h op predicate | .oneOrNone h op predicate => do
    let _ ← h.buildTerminal r.dialect op predicate
    .ok ()
  | .count h predicate => do
    let _ ← h.buildTerminal r.dialect .count predicate
    .ok ()
  | .any h predicate => do
    let _ ← h.buildTerminal r.dialect .any predicate
    .ok ()
  | .batchUpdate predicate (first :: rest) => (Batch.assign first rest).compilation r predicate
  | .batchDelete predicate => Batch.remove.compilation r predicate
  | _ => .ok ()

end Operation

/-! ## Operations that are refused -/

namespace Batch

variable {r : Repository σ} {predicate : Expr} {b : Batch}

/-- What keeps a batch from being compiled is an error of compilation. -/
theorem isCompileError_of_compilation (h : b.compilation r predicate = .error fault) :
    fault.isCompileError = true := by
  apply QueryError.isCompileError_of_isRefusal
  rcases bind_eq_error.mp h with hcommand | ⟨command, -, hrest⟩
  · exact b.onlyRefuses_command r fault hcommand
  · exact Query.onlyRefuses_planFilter _ _ _ fault (bind_ok_eq_error.mp hrest)

/-- A batch that is refused fails and does nothing. -/
theorem perform_of_refused (h : b.compilation r predicate = .error fault)
    (s : Held (σ × List Event)) : b.perform r.journaled predicate s = (.failed fault, s) := by
  rw [perform_eq]
  rcases bind_eq_error.mp h with hcommand | ⟨command, hcommand, hrest⟩
  · exact Run.lift_bind_of_error (x := b.command r) hcommand _ s
  · have hfilter := bind_ok_eq_error.mp hrest
    show (Run.lift (b.command r) >>= _) s = _
    rw [hcommand, Run.lift_ok_bind]
    exact Run.lift_bind_of_error hfilter _ s

end Batch

namespace Operation

variable {r : Repository σ}

/-- An operation is refused with an error of compilation. -/
theorem isCompileError_of_compilation {op : Operation} (h : op.compilation r = .error fault) :
    fault.isCompileError = true := by
  cases op with
  | toList x | one x op p | oneOrNone x op p | count x p | any x p =>
    exact Dialect.isCompileError_compile (bind_ok_eq_error.mp h)
  | batchUpdate predicate assignments =>
    cases assignments with
    | nil => cases h
    | cons first rest => exact Batch.isCompileError_of_compilation h
  | batchDelete predicate => exact Batch.isCompileError_of_compilation h
  | _ => cases h

/-- An operation that is refused fails and does nothing. -/
theorem perform_of_refused {op : Operation} (h : op.compilation r = .error fault)
    (s : Held (σ × List Event)) : op.perform r s = (.failed fault, s) := by
  cases op with
  | toList x => exact Run.bind_of_failed (Run.lift_bind_of_error (bind_ok_eq_error.mp h) _ s) _
  | one x op p =>
    refine Run.bind_of_failed (Run.bind_of_failed ?_ _) _
    exact Run.lift_bind_of_error (bind_ok_eq_error.mp h) _ s
  | oneOrNone x op p =>
    exact Run.bind_of_failed (Run.lift_bind_of_error (bind_ok_eq_error.mp h) _ s) _
  | count x p => exact Run.bind_of_failed (Run.lift_bind_of_error (bind_ok_eq_error.mp h) _ s) _
  | any x p => exact Run.bind_of_failed (Run.lift_bind_of_error (bind_ok_eq_error.mp h) _ s) _
  | batchUpdate predicate assignments =>
    cases assignments with
    | nil => cases h
    | cons first rest => exact Run.bind_of_failed (Batch.perform_of_refused h s) _
  | batchDelete predicate => exact Run.bind_of_failed (Batch.perform_of_refused h s) _
  | _ => cases h

end Operation

/-- A plan or a statement that does not come about is refused with an error of compilation. An
operation whose query, names or predicate are refused fails with that error, whatever the connection
is and whatever state it is in, and leaves this state as it was: whether the connection is open,
whether it can be used, and the journal of the calls that have reached it. Without assignments a
batch has nothing to compile, and does nothing. -/
theorem perform_of_compilation_error (r : Repository σ) (s : Held (σ × List Event)) :
    (∀ (d : Dialect) (e : Entity) (x : Expr) (bound : List Value) (fault : QueryError),
      d.planQuery e x = .error fault ∨ d.planFilter e x bound = .error fault ∨
        d.compile e x = .error fault → fault.isCompileError = true) ∧
    (∀ (op : Operation) (fault : QueryError), op.compilation r = .error fault →
      fault.isCompileError = true ∧ op.perform r s = (.failed fault, s)) ∧
    ∀ predicate, (Operation.batchUpdate predicate []).perform r s = (.done (), s) := by
  refine ⟨?_, ?_, fun _ => rfl⟩
  · intro d e x bound fault h
    rcases h with hquery | hfilter | hcompile
    · exact QueryError.isCompileError_of_isRefusal (d.onlyRefuses_planQuery e x fault hquery)
    · exact QueryError.isCompileError_of_isRefusal
        (Query.onlyRefuses_planFilter d x bound fault hfilter)
    · exact Dialect.isCompileError_compile hcompile
  · intro op fault h
    exact ⟨Operation.isCompileError_of_compilation h, Operation.perform_of_refused h s⟩

/-- The users beyond the tenth, in no order. -/
def laterUsers : Handle := (Handle.ofEntity Sample.users Sample.user).skip 10

/-- All users are to get older and richer, but they have no column for riches. -/
def enrichment : Operation := .batchUpdate .source [("age", .int 70), ("riches", .int 9)]

/-- The users beyond the tenth in no order, and a change to a column that does not exist: neither
reaches the connection. -/
theorem perform_laterUsers_enrichment :
    QueryError.missingOrder.isCompileError = true ∧
    (Operation.toList laterUsers).perform scriptedUsers ⟨({ isOpen := true }, []), true⟩ =
      (.failed .missingOrder, ⟨({ isOpen := true }, []), true⟩) ∧
    enrichment.perform scriptedUsers ⟨({}, []), false⟩ =
      (.failed (.unknownColumn "users" "riches"), ⟨({}, []), false⟩) := by
  have hlater : (Operation.toList laterUsers).compilation scriptedUsers = .error .missingOrder := by
    rfl
  have hriches : enrichment.compilation scriptedUsers =
      .error (.unknownColumn "users" "riches") := by with_unfolding_all rfl
  obtain ⟨-, hrefused, -⟩ :=
    perform_of_compilation_error scriptedUsers ⟨({ isOpen := true }, []), true⟩
  obtain ⟨-, hrefused', -⟩ := perform_of_compilation_error scriptedUsers ⟨({}, []), false⟩
  exact ⟨(hrefused _ _ hlater).1, (hrefused _ _ hlater).2, (hrefused' _ _ hriches).2⟩

end SqlCompose
