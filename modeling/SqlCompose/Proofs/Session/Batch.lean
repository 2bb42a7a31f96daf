import SqlCompose.Proofs.Query.Fault
import SqlCompose.Proofs.Query.Silence
import SqlCompose.Proofs.Session.Journal

/-!
# What a batch sends

A batch removes or changes all rows that satisfy a predicate. It fails while its statement is put
together, and the connection is not touched, or it sends this one statement. The statement has a
condition unless the predicate is silent, and it has no row limit, whatever the predicate asks for.
-/

namespace SqlCompose

namespace Run

variable {σ α β : Type}

/-- An operation that needs a computed result goes on with it. -/
theorem lift_ok_bind (a : α) (f : α → Run σ β) : (lift (.ok a) >>= f) = f a := rfl

end Run

/-! ## Batches -/

/-- What is done to all rows that satisfy a predicate. -/
inductive Batch where
  /-- They are removed. -/
  | remove
  /-- Columns of theirs are changed, one at least. -/
  | assign (first : String × Value) (rest : List (String × Value))

namespace Batch

variable {σ : Type}

/-- The values that are bound before those of the predicate. -/
def bound : Batch → List Value
  | .remove => []
  | .assign first rest => (first :: rest).map (·.2)

/-- The statement without its condition. -/
def command (r : Repository σ) : Batch → Except QueryError (List Token)
  | .remove => .ok (Statement.deleteTokens r.entity.table)
  | .assign first rest => do
    .ok (Statement.updateTokens r.entity.table
      (← (first :: rest).mapM fun a => r.assignedColumn a.1))

/-- Carry out a batch. -/
def perform (r : Repository σ) (predicate : Expr) : Batch → Run (Held σ) UInt64
  | .remove => r.batchDelete predicate
  | .assign first rest => r.batchUpdate predicate (first :: rest)

/-- A batch is put together first, its command before its condition, and then sent. -/
theorem perform_eq (r : Repository σ) (predicate : Expr) (b : Batch) :
    b.perform r predicate = (do
      let command ← Run.lift (b.command r)
      let filter ← Run.lift (r.dialect.planFilter r.entity predicate.toLambda b.bound)
      r.connection.executeNonQuery
        (r.dialect.write command ++ Statement.whereClause filter.fragment) filter.params) := by
  cases b with
  | remove => rfl
  | assign first rest =>
    simp only [perform, Repository.batchUpdate, command, List.isEmpty_cons, Bool.false_eq_true,
      if_false]
    cases (first :: rest).mapM fun a => r.assignedColumn a.1 <;> rfl

/-- A command is refused only for a column that the entity does not have. -/
theorem onlyRefuses_command (r : Repository σ) (b : Batch) : OnlyRefuses (b.command r) := by
  cases b with
  | remove => exact .ok _
  | assign first rest =>
    refine (OnlyRefuses.mapM ?_ _).bind fun _ => .ok _
    intro a
    unfold Repository.assignedColumn
    split
    · exact .ok _
    · exact .unknownColumn _ _

/-- The condition behind a command is left out if and only if the predicate is silent. -/
theorem whereClause_of_planFilter {d : Dialect} {e : Entity} {predicate : Expr}
    {bound : List Value} {filter : Plan}
    (h : d.planFilter e predicate.toLambda bound = .ok filter) :
    Statement.whereClause filter.fragment =
      if predicate.isSilent then "" else " WHERE " ++ filter.fragment := by
  have hempty := d.fragment_eq_empty_iff h
  rw [Expr.isSilent_toLambda] at hempty
  unfold Statement.whereClause
  rw [← String.isEmpty_iff] at hempty
  cases hsilent : predicate.isSilent <;> simp_all

end Batch

/-- A batch is refused with an error of compilation and the connection is left alone, or all that it
sends is one statement: its command, with the condition of the predicate behind it unless the
predicate is silent. The condition is empty for no other predicate, and the rows that the predicate
asks for, which are in its plan, are not in the statement. -/
theorem batch_sends {σ : Type} (r : Repository σ) (hc : r.connection.Steady) (b : Batch)
    (predicate : Expr) (h : Held (σ × List Event)) :
    (∃ fault, fault.isCompileError = true ∧
      b.perform r.journaled predicate h = (.failed fault, h)) ∨
    ∃ command filter events, b.command r = .ok command ∧
      r.dialect.planFilter r.entity predicate.toLambda b.bound = .ok filter ∧
      r.connection.Sends
        (.modify (r.dialect.write command ++
          if predicate.isSilent then "" else " WHERE " ++ filter.fragment) filter.params)
        (b.perform r.journaled predicate) h events ∧
      (filter.fragment = "" ↔ predicate.isSilent = true) ∧
      (filter.skip.isSome || filter.take.isSome) = predicate.asksRows := by
  have hperform : b.perform r.journaled predicate = (do
      let command ← Run.lift (b.command r)
      let filter ← Run.lift (r.dialect.planFilter r.entity predicate.toLambda b.bound)
      r.connection.journaled.executeNonQuery
        (r.dialect.write command ++ Statement.whereClause filter.fragment) filter.params) :=
    b.perform_eq r.journaled predicate
  cases hcommand : b.command r with
  | error fault =>
    left
    refine ⟨fault, ?_, ?_⟩
    · exact QueryError.isCompileError_of_isRefusal (b.onlyRefuses_command r fault hcommand)
    · rw [hperform, hcommand]
      rfl
  | ok command =>
    rw [hcommand, Run.lift_ok_bind] at hperform
    cases hfilter : r.dialect.planFilter r.entity predicate.toLambda b.bound with
    | error fault =>
      left
      refine ⟨fault, ?_, ?_⟩
      · exact QueryError.isCompileError_of_isRefusal
          (Query.onlyRefuses_planFilter _ _ _ fault hfilter)
      · rw [hperform, hfilter]
        rfl
    | ok filter =>
      right
      rw [hfilter, Run.lift_ok_bind, Batch.whereClause_of_planFilter hfilter] at hperform
      obtain ⟨events, hsends⟩ := r.connection.sends_executeNonQuery hc
        (r.dialect.write command ++
          if predicate.isSilent then "" else " WHERE " ++ filter.fragment) filter.params h
      have hempty := r.dialect.fragment_eq_empty_iff hfilter
      have hrows := r.dialect.isSome_rows_iff hfilter
      rw [Expr.isSilent_toLambda] at hempty
      rw [Expr.asksRows_toLambda] at hrows
      exact ⟨command, filter, events, rfl, rfl, hperform ▸ hsends, hempty, hrows⟩

/-- The predicate of those who are older than eighteen. -/
def grownUp : Expr := .binary .gt (.column "age") (.constant (.int 18))

/-- Removing those older than eighteen: the statement carries the condition and binds the age. -/
theorem batch_sends_grownUp : (Script.connection .sqlServer).Steady ∧
    ∃ events, scriptedUsers.connection.Sends
      (.modify "DELETE FROM [users] WHERE [age] > @p0" [.int 18])
      (Batch.remove.perform scriptedUsers.journaled grownUp) ⟨({}, []), false⟩ events := by
  refine ⟨Script.steady .sqlServer, ?_⟩
  have hplan : Dialect.sqlServer.planFilter Sample.users grownUp.toLambda [] =
      .ok ⟨"[age] > @p0", [.int 18], .all, none, none, none, none⟩ := by rfl
  rcases batch_sends scriptedUsers (Script.steady .sqlServer) .remove grownUp ⟨({}, []), false⟩
    with ⟨fault, -, hfailed⟩ | ⟨command, filter, events, hcommand, hfilter, hsends, -⟩
  · have hdone : (Batch.remove.perform scriptedUsers.journaled grownUp ⟨({}, []), false⟩).1 =
        .done 0 := by rfl
    rw [hfailed] at hdone
    cases hdone
  · obtain rfl := Except.ok.inj (hplan.symm.trans hfilter)
    obtain rfl := Except.ok.inj hcommand
    exact ⟨events, hsends⟩

/-- A silent predicate removes all rows, and a row limit in a predicate is not kept to. -/
theorem batchDelete_everyone :
    (scriptedUsers.batchDelete .source ⟨{}, false⟩).2.inner.calls =
      [.opening, .modify "DELETE FROM [users]" []] ∧
    (scriptedUsers.batchDelete (.call .first [.source, grownUp]) ⟨{}, false⟩).2.inner.calls =
      [.opening, .modify "DELETE FROM [users] WHERE [age] > @p0" [.int 18]] :=
  ⟨by rfl, by rfl⟩

end SqlCompose
