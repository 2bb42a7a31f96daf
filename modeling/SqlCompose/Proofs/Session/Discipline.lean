import SqlCompose.Proofs.Session.Journal
import SqlCompose.Session.Handle

/-!
# The discipline of a connection

All operations of a repository, of its handles and of its provider share one connection, which is
opened when one of them first needs it. However many of them come one after the other, and however
the calls end that reach the connection, its journal is sound: every call was due, and an open
connection was opened once more than it was closed. One operation makes one trip to the connection
at most.
-/

namespace SqlCompose

/-! ## Operations -/

/-- An operation of a repository, of a handle or of a provider. -/
inductive Operation where
  | get (key : Value)
  | add (x : Datum)
  | update (x : Datum)
  | remove (x : Datum)
  | batchUpdate (predicate : Expr) (assignments : List (String × Value))
  | batchDelete (predicate : Expr)
  | toList (h : Handle)
  | one (h : Handle) (op : Operator) (predicate : Option Expr)
  | oneOrNone (h : Handle) (op : Operator) (predicate : Option Expr)
  | count (h : Handle) (predicate : Option Expr)
  | any (h : Handle) (predicate : Option Expr)
  | scalar (q : CompiledQuery)
  | execute (sql : String) (params : List Value)
  | executeNonQuery (sql : String) (params : List Value)
  /-- Close the connection, through the repository or its provider. -/
  | close
  /-- Give the repository up; its handles and its provider stay. -/
  | release

/-- An operation whose result is forgotten. -/
def Run.void {σ α : Type} (x : Run σ α) : Run σ Unit := do
  let _ ← x
  pure ()

namespace Operation

variable {σ : Type} (r : Repository σ)

/-- Carry out an operation on a connection that keeps a journal. -/
def perform : Operation → JournaledRun σ Unit
  | .get key => (r.journaled.get key).void
  | .add x => (r.journaled.add x).void
  | .update x => (r.journaled.update x).void
  | .remove x => (r.journaled.remove x).void
  | .batchUpdate predicate assignments => (r.journaled.batchUpdate predicate assignments).void
  | .batchDelete predicate => (r.journaled.batchDelete predicate).void
  | .toList h => (h.toList r.connection.journaled).void
  | .one h op predicate => (h.one r.connection.journaled op predicate).void
  | .oneOrNone h op predicate => (h.one? r.connection.journaled op predicate).void
  | .count h predicate => (h.count r.connection.journaled predicate).void
  | .any h predicate => (h.any r.connection.journaled predicate).void
  | .scalar q => (r.connection.journaled.scalar q).void
  | .execute sql params => (r.connection.journaled.execute sql params).void
  | .executeNonQuery sql params => (r.connection.journaled.executeNonQuery sql params).void
  | .close => r.journaled.close
  | .release => r.journaled.release

/-- Whether an operation has nothing to do with a connection but to close it. -/
def isClosing : Operation → Bool
  | .close | .release => true
  | _ => false

/-- Whether an operation has nothing to ask of the connection: a key that no row has, or nothing
to change. -/
def isIdle : Operation → Bool
  | .get key => Repository.isVacant key
  | .update _ => (r.entity.columns.filter fun c => !c.isKey).isEmpty
  | .batchUpdate _ assignments => assignments.isEmpty
  | _ => false

end Operation

/-! ## One operation -/

namespace Connection

variable {σ α β : Type} {c : Connection σ} {h : Held (σ × List Event)}

/-- Whether an operation goes on from a state with one statement at most. -/
def Visits (c : Connection σ) (x : JournaledRun σ α) (h : Held (σ × List Event)) : Prop :=
  ∃ statement events, statement.isStatement = true ∧ c.Sends statement x h events

/-- What is done with an answer away from the connection adds no statement. -/
theorem Visits.bind {x : JournaledRun σ α} {f : α → JournaledRun σ β} (hx : c.Visits x h)
    (hf : ∀ a, Quiet (f a)) : c.Visits (x >>= f) h := by
  obtain ⟨statement, events, hs, hsends⟩ := hx
  exact ⟨statement, events, hs, hsends.bind_quiet c hf⟩

/-- Forgetting the result adds no statement. -/
theorem Visits.void {x : JournaledRun σ α} (hx : c.Visits x h) : c.Visits x.void h :=
  hx.bind fun _ => .done ()

/-- An operation that first needs the result of a computation. -/
theorem visits_lift {r : Except QueryError α} {f : α → JournaledRun σ β}
    (hf : ∀ a, r = .ok a → c.Visits (f a) h) : c.Visits (Run.lift r >>= f) h := by
  cases r with
  | ok a => exact hf a rfl
  | error fault =>
    have hquiet : Quiet (σ := σ) (α := β) (Run.fail fault) := .fail fault
    exact ⟨.query "" [], [], rfl, hquiet.adds h, .none rfl⟩

/-- A query is one statement. -/
theorem visits_execute (hc : c.Steady) (sql : String) (params : List Value) :
    c.Visits (c.journaled.execute sql params) h := by
  obtain ⟨events, hsends⟩ := c.sends_execute hc sql params h
  exact ⟨_, events, rfl, hsends⟩

/-- A modification is one statement. -/
theorem visits_executeNonQuery (hc : c.Steady) (sql : String) (params : List Value) :
    c.Visits (c.journaled.executeNonQuery sql params) h := by
  obtain ⟨events, hsends⟩ := c.sends_executeNonQuery hc sql params h
  exact ⟨_, events, rfl, hsends⟩

/-- Fetching the rows of a query is one statement. -/
theorem visits_fetch (hc : c.Steady) (decode : Json → Except Json.DecodeFault α) (e : Entity)
    (q : CompiledQuery) : c.Visits (c.journaled.fetch decode e q) h :=
  (visits_execute hc _ _).bind fun _ => .ofOutcome _

/-- Reading the first cell of a query is one statement. -/
theorem visits_scalar (hc : c.Steady) (q : CompiledQuery) : c.Visits (c.journaled.scalar q) h :=
  (visits_execute hc _ _).bind fun _ => .done _

end Connection

open Connection

namespace Repository

variable {σ : Type} {r : Repository σ} {h : Held (σ × List Event)}

/-- Looking for a row by a key is one statement at most, if the key is one that a row may have. -/
theorem visits_get (hc : r.connection.Steady) {key : Value} (hkey : isVacant key = false) :
    r.connection.Visits (r.journaled.get key) h := by
  refine visits_lift fun _ _ => ?_
  rw [if_neg (by simp [hkey])]
  exact (visits_execute hc _ _).bind fun _ => (Quiet.ofOutcome _).bind fun _ => .done _

/-- Inserting a row is one statement at most. -/
theorem visits_add (hc : r.connection.Steady) (x : Datum) :
    r.connection.Visits (r.journaled.add x) h := by
  refine visits_lift fun _ _ => visits_lift fun _ _ => ?_
  split
  · exact (visits_executeNonQuery hc _ _).bind fun _ => .done _
  · exact (visits_execute hc _ _).bind fun _ =>
      (Quiet.ofOutcome _).bind fun _ => Quiet.ofOutcome _

/-- Updating a row is one statement at most, if there is something to change. -/
theorem visits_update (hc : r.connection.Steady) {x : Datum}
    (hx : (r.entity.columns.filter fun c => !c.isKey).isEmpty = false) :
    r.connection.Visits (r.journaled.update x) h := by
  refine visits_lift fun _ _ => visits_lift fun _ _ => ?_
  rw [if_neg (by simpa [journaled] using hx)]
  exact visits_lift fun _ _ => visits_lift fun _ _ => visits_executeNonQuery hc _ _

/-- Removing a row is one statement at most. -/
theorem visits_remove (hc : r.connection.Steady) (x : Datum) :
    r.connection.Visits (r.journaled.remove x) h :=
  visits_lift fun _ _ => visits_lift fun _ _ => visits_lift fun _ _ =>
    visits_executeNonQuery hc _ _

/-- Updating all rows of a predicate is one statement at most, if there is something to change. -/
theorem visits_batchUpdate (hc : r.connection.Steady) (predicate : Expr)
    {assignments : List (String × Value)} (ha : assignments.isEmpty = false) :
    r.connection.Visits (r.journaled.batchUpdate predicate assignments) h := by
  unfold batchUpdate
  rw [if_neg (by simp [ha])]
  exact visits_lift fun _ _ => visits_lift fun _ _ => visits_executeNonQuery hc _ _

/-- Removing all rows of a predicate is one statement at most. -/
theorem visits_batchDelete (hc : r.connection.Steady) (predicate : Expr) :
    r.connection.Visits (r.journaled.batchDelete predicate) h :=
  visits_lift fun _ _ => visits_executeNonQuery hc _ _

/-- A key that no row has is not looked for. -/
theorem quiet_get {key : Value} (hkey : isVacant key = true) : Quiet (r.journaled.get key) := by
  refine (Quiet.ofOutcome _).bind fun _ => ?_
  rw [if_pos hkey]
  exact .done _

/-- Updating a row of which only the key is stored does not touch the connection. -/
theorem quiet_update {x : Datum}
    (hx : (r.entity.columns.filter fun c => !c.isKey).isEmpty = true) :
    Quiet (r.journaled.update x) := by
  refine (Quiet.ofOutcome _).bind fun _ => (Quiet.ofOutcome _).bind fun _ => ?_
  rw [if_pos (by simpa [journaled] using hx)]
  exact .done _

/-- Updating all rows of a predicate without assignments does not touch the connection. -/
theorem quiet_batchUpdate (predicate : Expr) {assignments : List (String × Value)}
    (ha : assignments.isEmpty = true) :
    Quiet (r.journaled.batchUpdate predicate assignments) := by
  unfold batchUpdate
  rw [if_pos ha]
  exact .done _

end Repository

namespace Handle

variable {σ : Type} {c : Connection σ} {h : Held (σ × List Event)}

/-- Reading all rows of a handle is one statement at most. -/
theorem visits_toList (hc : c.Steady) (x : Handle) : c.Visits (x.toList c.journaled) h :=
  visits_lift fun _ _ => visits_fetch hc _ _ _

/-- Reading one row of a handle or none is one statement at most. -/
theorem visits_oneOrNone (hc : c.Steady) (x : Handle) (op : Operator) (predicate : Option Expr) :
    c.Visits (x.one? c.journaled op predicate) h :=
  visits_lift fun _ _ => (visits_fetch hc _ _ _).bind fun _ => .done _

/-- Reading one row of a handle is one statement at most. -/
theorem visits_one (hc : c.Steady) (x : Handle) (op : Operator) (predicate : Option Expr) :
    c.Visits (x.one c.journaled op predicate) h := by
  refine (visits_oneOrNone hc x op predicate).bind fun row => ?_
  cases row with
  | some row => exact .done row
  | none => exact .fail _

/-- Counting the rows of a handle is one statement at most. -/
theorem visits_count (hc : c.Steady) (x : Handle) (predicate : Option Expr) :
    c.Visits (x.count c.journaled predicate) h :=
  visits_lift fun _ _ => (visits_scalar hc _).bind fun _ => .ofOutcome _

/-- Asking whether a handle has rows is one statement at most. -/
theorem visits_any (hc : c.Steady) (x : Handle) (predicate : Option Expr) :
    c.Visits (x.any c.journaled predicate) h :=
  visits_lift fun _ _ => (visits_execute hc _ _).bind fun _ => .done _

end Handle

namespace Operation

variable {σ : Type} {r : Repository σ}

/-- What an operation adds to the journal, given how it ends and whether the connection is open
before and after it. -/
inductive Obeys (r : Repository σ) (op : Operation) :
    Bool → Outcome Unit → List Event → Bool → Prop
  /-- It closes the connection, or tries to. -/
  | closing {a b : Bool} {o : Outcome Unit} {events : List Event} (hop : op.isClosing = true)
    (h : Closing a events b) : Obeys r op a o events b
  /-- It leaves the connection alone. -/
  | idle {a : Bool} {o : Outcome Unit} (hop : op.isIdle r = true) : Obeys r op a o [] a
  /-- It makes a trip with a statement. -/
  | trip {a b : Bool} {o : Outcome Unit} {events : List Event} {statement : Call}
    (hs : statement.isStatement = true) (h : Trip statement a o events b) : Obeys r op a o events b

/-- An operation that neither closes the connection nor is idle makes one trip at most. -/
theorem visits_perform (hc : r.connection.Steady) {op : Operation} (hclosing : op.isClosing = false)
    (hidle : op.isIdle r = false) (h : Held (σ × List Event)) :
    r.connection.Visits (op.perform r) h := by
  cases op with
  | get key => exact (Repository.visits_get hc hidle).void
  | add x => exact (Repository.visits_add hc x).void
  | update x => exact (Repository.visits_update hc hidle).void
  | remove x => exact (Repository.visits_remove hc x).void
  | batchUpdate predicate assignments => exact (Repository.visits_batchUpdate hc predicate hidle).void
  | batchDelete predicate => exact (Repository.visits_batchDelete hc predicate).void
  | toList x => exact (Handle.visits_toList hc x).void
  | one x op predicate => exact (Handle.visits_one hc x op predicate).void
  | oneOrNone x op predicate => exact (Handle.visits_oneOrNone hc x op predicate).void
  | count x predicate => exact (Handle.visits_count hc x predicate).void
  | any x predicate => exact (Handle.visits_any hc x predicate).void
  | scalar q => exact (visits_scalar hc q).void
  | execute sql params => exact (visits_execute hc sql params).void
  | executeNonQuery sql params => exact (visits_executeNonQuery hc sql params).void
  | close | release => cases hclosing

/-- An operation with nothing to ask does not touch the connection. -/
theorem quiet_perform {op : Operation} (hidle : op.isIdle r = true) : Quiet (op.perform r) := by
  cases op with
  | get key => exact (Repository.quiet_get hidle).bind fun _ => .done ()
  | update x => exact (Repository.quiet_update hidle).bind fun _ => .done ()
  | batchUpdate predicate assignments =>
    exact (Repository.quiet_batchUpdate predicate hidle).bind fun _ => .done ()
  | _ => cases hidle

/-- Giving a repository up does to the connection what closing it does. -/
theorem release_state (h : Held (σ × List Event)) :
    (r.journaled.release h).2 = (r.journaled.close h).2 := by
  show (Run.ignoringFailure r.journaled.close h).2 = _
  unfold Run.ignoringFailure
  rcases r.journaled.close h with ⟨_ | _ | _, h'⟩ <;> rfl

/-- Every operation keeps to what it may do. An idle operation may still fail, but without a call.
-/
theorem adds_perform (hc : r.connection.Steady) (op : Operation) (h : Held (σ × List Event)) :
    ∃ events, Adds (op.perform r) h events ∧
      op.Obeys r (r.connection.isOpen h.inner.1) (op.perform r h).1 events
        (r.connection.isOpen (op.perform r h).2.inner.1) := by
  cases hclosing : op.isClosing with
  | true =>
    obtain ⟨events, hadds, hclosed⟩ := r.connection.adds_close hc h
    have hstate : (op.perform r h).2 = (r.connection.journaled.close h).2 := by
      cases op with
      | close => rfl
      | release => exact release_state h
      | _ => cases hclosing
    refine ⟨events, ⟨?_, ?_, ?_⟩, .closing hclosing ?_⟩ <;> rw [hstate]
    · exact hadds.journal
    · exact hadds.breaks
    · exact hadds.unusable
    · exact hclosed
  | false =>
    cases hidle : op.isIdle r with
    | true =>
      have hquiet := quiet_perform hidle
      refine ⟨[], hquiet.adds h, ?_⟩
      rw [hquiet h]
      exact .idle hidle
    | false =>
      obtain ⟨statement, events, hs, hsends⟩ := visits_perform hc hclosing hidle h
      have hforget : (op.perform r h).1.forget = (op.perform r h).1 := by
        rcases (op.perform r h).1 with _ | _ | _ <;> rfl
      exact ⟨events, hsends.toAdds, .trip hs (hforget ▸ hsends.trip)⟩

namespace Obeys

variable {op : Operation} {a b : Bool} {o : Outcome Unit} {events : List Event}

/-- The calls of an operation are due. -/
theorem sound (h : op.Obeys r a o events b) : Sound a events b := by
  cases h with
  | closing hop h => exact h.sound
  | idle hop => exact .nil a
  | trip hs h => exact h.sound hs

/-- Only the last call of an operation can have broken off. -/
theorem unbroken (h : op.Obeys r a o events b) :
    ∀ e ∈ events.dropLast, e.outcome.isBroken = false := by
  cases h with
  | closing hop h => cases h <;> simp
  | idle hop => simp
  | trip hs h => cases h <;> simp

/-- An operation that has ended with a result has run a statement once, unless it was there to close
the connection or had nothing to ask of it. -/
theorem countP_eq_one (h : op.Obeys r a o events b) (hclosing : op.isClosing = false)
    (hidle : op.isIdle r = false) (ho : o.isDone = true) :
    events.countP (·.call.isStatement) = 1 := by
  cases h with
  | closing hop => simp [hclosing] at hop
  | idle hop => simp [hidle] at hop
  | trip hs h => exact h.countP_eq_one hs ho

end Obeys

end Operation

/-! ## Runs -/

/-- Carry out operations one after the other. -/
def performAll {σ : Type} (r : Repository σ) (ops : List Operation) (h : Held (σ × List Event)) :
    Held (σ × List Event) :=
  ops.foldl (fun h op => (op.perform r h).2) h

/-- A journal in order: its calls were due, from a closed connection on, and after one that broke
off there is none. -/
structure InOrder {σ : Type} (r : Repository σ) (h : Held (σ × List Event)) : Prop where
  sound : Sound false h.inner.2 (r.connection.isOpen h.inner.1)
  unbroken : ∀ e ∈ h.inner.2.dropLast, e.outcome.isBroken = false
  unusable : ∀ e ∈ h.inner.2, e.outcome.isBroken = true → h.poisoned = true

section Runs

variable {σ : Type} {r : Repository σ} {h : Held (σ × List Event)}

/-- An operation leaves the journal in order. On a connection that can be used nothing has broken
off, so more may follow. -/
theorem InOrder.perform (hc : r.connection.Steady) (hh : InOrder r h) (op : Operation) :
    InOrder r (op.perform r h).2 := by
  obtain ⟨events, hadds, hobeys⟩ := op.adds_perform hc h
  cases hpoisoned : h.poisoned with
  | true =>
    rw [hadds.unusable hpoisoned]
    exact hh
  | false =>
    have hclean : ∀ e ∈ h.inner.2, e.outcome.isBroken = false := by
      intro e he
      rw [Bool.eq_false_iff]
      intro hbroken
      exact Bool.false_ne_true (hpoisoned.symm.trans (hh.unusable e he hbroken))
    refine ⟨?_, ?_, ?_⟩ <;> rw [hadds.journal]
    · exact hh.sound.append hobeys.sound
    · intro e he
      by_cases hnil : events = []
      · exact hh.unbroken e (by simpa [hnil] using he)
      · rw [List.dropLast_append_of_ne_nil hnil] at he
        rcases List.mem_append.mp he with hold | hnew
        · exact hclean e hold
        · exact hobeys.unbroken e hnew
    · intro e he hbroken
      rcases List.mem_append.mp he with hold | hnew
      · simp [hclean e hold] at hbroken
      · exact hadds.breaks e hnew hbroken

/-- However many operations come one after the other, the journal is in order. -/
theorem inOrder_performAll (hc : r.connection.Steady) (ops : List Operation) (hh : InOrder r h) :
    InOrder r (performAll r ops h) := by
  induction ops generalizing h with
  | nil => exact hh
  | cons op ops ih => exact ih (hh.perform hc op)

/-- A journal in order at one of its calls: the call was due, the connection had been opened as
often as it was closed, and once more where it was open, and no call came after one that broke
off. -/
theorem InOrder.call (hh : InOrder r h) {before after : List Event} {e : Event}
    (hsplit : h.inner.2 = before ++ e :: after) :
    e.Proper ∧ openings before = closings before + e.wasOpen.toNat ∧
      openings (before ++ [e]) = closings (before ++ [e]) + e.isOpen.toNat ∧
      (e.outcome.isBroken = true → after = []) := by
  have hsound := hh.sound
  rw [hsplit] at hsound
  obtain ⟨b, hbefore, hrest⟩ := hsound.of_append
  cases hrest with
  | cons he hafter =>
    refine ⟨he, hbefore.openings_eq, (hbefore.append (.single he)).openings_eq, ?_⟩
    intro hbroken
    cases after with
    | nil => rfl
    | cons next after =>
      have hlast : e ∈ h.inner.2.dropLast := by
        rw [hsplit, List.dropLast_append_of_ne_nil (by simp)]
        simp
      simp [hh.unbroken e hlast] at hbroken

end Runs

/-- Over a connection that opens and closes only when it is told to and was closed at first, any
sequence of operations leaves a journal in order: every call was due, the number of times the
connection was opened exceeds the number of times it was closed by one where it was open and by
none where it was closed, and no call came after one that broke off. Whatever operation comes next
adds a call to close, nothing, or one trip with one statement, and exactly one statement if it ends
with a result. -/
theorem journal_of_operations {σ : Type} (r : Repository σ) (hc : r.connection.Steady) (s : σ)
    (hs : r.connection.isOpen s = false) (ops : List Operation) (h : Held (σ × List Event))
    (hrun : performAll r ops ⟨(s, []), false⟩ = h) :
    openings h.inner.2 = closings h.inner.2 + (r.connection.isOpen h.inner.1).toNat ∧
    (∀ before e after, h.inner.2 = before ++ e :: after →
      e.Proper ∧ openings before = closings before + e.wasOpen.toNat ∧
        openings (before ++ [e]) = closings (before ++ [e]) + e.isOpen.toNat ∧
        (e.outcome.isBroken = true → after = [])) ∧
    ∀ op : Operation, ∃ events, (op.perform r h).2.inner.2 = h.inner.2 ++ events ∧
      op.Obeys r (r.connection.isOpen h.inner.1) (op.perform r h).1 events
        (r.connection.isOpen (op.perform r h).2.inner.1) ∧
      (op.isClosing = false → op.isIdle r = false → (op.perform r h).1.isDone = true →
        events.countP (·.call.isStatement) = 1) := by
  have hstart : InOrder r ⟨(s, []), false⟩ := by
    refine ⟨?_, by simp, by simp⟩
    rw [hs]
    exact .nil false
  have hh : InOrder r h := hrun ▸ inOrder_performAll hc ops hstart
  refine ⟨hh.sound.openings_eq, fun before e after hsplit => hh.call hsplit, ?_⟩
  intro op
  obtain ⟨events, hadds, hobeys⟩ := op.adds_perform hc h
  exact ⟨events, hadds.journal, hobeys, hobeys.countP_eq_one⟩

/-- A script by which the connection does not open at once, and the second query breaks off. -/
def hardDay : Script := { opens := [.fail "down"], results := [.succeed .empty, .breakOff] }

/-- What is asked on that day; the last query comes after the break. -/
def asked : List Operation :=
  let all := Operation.toList (Handle.ofEntity Sample.users Sample.user)
  [all, all, .close, all, all]

/-- A day on which the connection does not open at once and a query breaks off: the journal, call by
call. -/
theorem journal_of_hardDay : ∃ h, performAll scriptedUsers asked ⟨(hardDay, []), false⟩ = h ∧
    h.inner.2.map (fun e => (e.wasOpen, e.outcome.isDone, e.isOpen)) =
      [(false, false, false), (false, true, true), (true, true, true), (true, true, false),
        (false, true, true), (true, false, true)] ∧
    openings h.inner.2 = closings h.inner.2 + (scriptedUsers.connection.isOpen h.inner.1).toNat :=
  ⟨_, rfl, rfl,
    (journal_of_operations scriptedUsers (Script.steady .sqlServer) hardDay rfl asked _ rfl).1⟩

end SqlCompose
