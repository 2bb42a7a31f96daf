import SqlCompose.Connection.Scripted
import SqlCompose.Sample.Users
import SqlCompose.Session.Repository

/-!
# Journals of connections

A connection that keeps a journal notes every call that reaches it, how the call ended, and whether
the connection was open before and after it. `Sound` says that a journal consists of calls each of
which was due: to open a closed connection, to close an open one, or to run a statement on an open
one. `Trip` is what one operation with a statement adds to a journal: nothing, a call to open that
did not succeed, or the statement, with a call to open in front of it where one was needed.
-/

namespace SqlCompose

/-! ## Outcomes -/

namespace Outcome

variable {α : Type}

/-- Whether an operation ended with a result. -/
def isDone : Outcome α → Bool
  | .done _ => true
  | .failed _ | .broken => false

/-- Whether an operation broke off. -/
def isBroken : Outcome α → Bool
  | .broken => true
  | .done _ | .failed _ => false

/-- An outcome without its result. -/
def forget : Outcome α → Outcome Unit
  | .done _ => .done ()
  | .failed e => .failed e
  | .broken => .broken

/-- An outcome with its result changed. -/
def map {β : Type} (f : α → β) : Outcome α → Outcome β
  | .done a => .done (f a)
  | .failed e => .failed e
  | .broken => .broken

/-- An outcome that goes on with its result. -/
def bind {β : Type} (f : α → Outcome β) : Outcome α → Outcome β
  | .done a => f a
  | .failed e => .failed e
  | .broken => .broken

/-- The result of an outcome, or a value in its place. -/
def getD : Outcome α → α → α
  | .done a, _ => a
  | .failed _, b | .broken, b => b

@[simp] theorem forget_done (a : α) : (Outcome.done a).forget = .done () := rfl

@[simp] theorem forget_failed (e : QueryError) : (Outcome.failed e : Outcome α).forget = .failed e :=
  rfl

@[simp] theorem forget_broken : (Outcome.broken : Outcome α).forget = .broken := rfl

@[simp] theorem isBroken_done (a : α) : (Outcome.done a).isBroken = false := rfl

@[simp] theorem isBroken_failed (e : QueryError) : (Outcome.failed e : Outcome α).isBroken = false :=
  rfl

@[simp] theorem isBroken_broken : (Outcome.broken : Outcome α).isBroken = true := rfl

@[simp] theorem isDone_forget (o : Outcome α) : o.forget.isDone = o.isDone := by cases o <;> rfl

@[simp] theorem isBroken_forget (o : Outcome α) : o.forget.isBroken = o.isBroken := by
  cases o <;> rfl

end Outcome

/-! ## Events -/

/-- Whether a call runs a statement. -/
def Call.isStatement : Call → Bool
  | .query _ _ | .modify _ _ => true
  | .opening | .closing => false

/-- A call that has reached a connection, and what became of it. -/
structure Event where
  /-- The call. -/
  call : Call
  /-- Whether the connection was open before. -/
  wasOpen : Bool
  /-- How the call ended. -/
  outcome : Outcome Unit
  /-- Whether the connection was open afterwards. -/
  isOpen : Bool

namespace Event

/-- Whether a call was due, and left the connection as one with its outcome does. -/
def Proper (e : Event) : Prop :=
  match e.call with
  | .opening => e.wasOpen = false ∧ e.isOpen = e.outcome.isDone
  | .closing => e.wasOpen = true ∧ e.isOpen = !e.outcome.isDone
  | .query _ _ | .modify _ _ => e.wasOpen = true ∧ e.isOpen = true

/-- Whether a connection was opened. -/
def opens (e : Event) : Bool :=
  match e.call with
  | .opening => e.outcome.isDone
  | _ => false

/-- Whether a connection was closed. -/
def closes (e : Event) : Bool :=
  match e.call with
  | .closing => e.outcome.isDone
  | _ => false

end Event

/-! ## Sound journals -/

/-- A journal of calls that were due, from a connection that was open or not to one that is. -/
inductive Sound : Bool → List Event → Bool → Prop
  | nil (b : Bool) : Sound b [] b
  | cons {e : Event} {log : List Event} {b : Bool} (h : e.Proper) (hlog : Sound e.isOpen log b) :
    Sound e.wasOpen (e :: log) b

/-- How often a connection was opened. -/
def openings (log : List Event) : Nat := log.countP Event.opens

/-- How often a connection was closed. -/
def closings (log : List Event) : Nat := log.countP Event.closes

namespace Sound

variable {a b c : Bool} {log more : List Event} {e : Event}

/-- One proper call is a sound journal. -/
theorem single (h : e.Proper) : Sound e.wasOpen [e] e.isOpen := .cons h (.nil _)

/-- Sound journals that meet at one state of the connection join into one. -/
theorem append (h : Sound a log b) (hmore : Sound b more c) : Sound a (log ++ more) c := by
  induction h with
  | nil b => exact hmore
  | cons he _ ih => exact .cons he (ih hmore)

/-- A journal is sound up to every point. -/
theorem of_append (h : Sound a (log ++ more) c) : ∃ b, Sound a log b ∧ Sound b more c := by
  induction log generalizing a with
  | nil => exact ⟨a, .nil a, h⟩
  | cons e log ih =>
    cases h with
    | cons he hlog =>
      obtain ⟨b, hlog, hmore⟩ := ih hlog
      exact ⟨b, .cons he hlog, hmore⟩

/-- An open connection was opened once more than it was closed, and a closed one as often. -/
theorem openings_eq (h : Sound a log b) :
    openings log + a.toNat = closings log + b.toNat := by
  induction h with
  | nil b => rfl
  | @cons e log b he hlog ih =>
    obtain ⟨call, wasOpen, outcome, isOpen⟩ := e
    unfold openings closings at ih ⊢
    rw [List.countP_cons, List.countP_cons]
    cases call with
    | opening =>
      obtain ⟨rfl, rfl⟩ : wasOpen = false ∧ isOpen = outcome.isDone := he
      cases hdone : outcome.isDone <;> simp [Event.opens, Event.closes, hdone] at ih ⊢ <;> omega
    | closing =>
      obtain ⟨rfl, rfl⟩ : wasOpen = true ∧ isOpen = !outcome.isDone := he
      cases hdone : outcome.isDone <;> simp [Event.opens, Event.closes, hdone] at ih ⊢ <;> omega
    | query sql params | modify sql params =>
      obtain ⟨rfl, rfl⟩ : wasOpen = true ∧ isOpen = true := he
      simp [Event.opens, Event.closes] at ih ⊢
      omega

end Sound

/-! ## Trips -/

/-- What an operation with a statement adds to a journal, given how it ends and whether the
connection is open before and after it. -/
inductive Trip (statement : Call) : Bool → Outcome Unit → List Event → Bool → Prop
  /-- It did not come to reach the connection. -/
  | none {b : Bool} {o : Outcome Unit} (h : o.isDone = false) : Trip statement b o [] b
  /-- The connection did not open, and the operation ended as the call to open it did. -/
  | refused {o : Outcome Unit} (h : o.isDone = false) :
    Trip statement false o [⟨.opening, false, o, false⟩] false
  /-- The statement was run; the operation went on only if it had an answer. -/
  | direct {o answer : Outcome Unit} (h : answer.isDone = true ∨ o = answer) :
    Trip statement true o [⟨statement, true, answer, true⟩] true
  /-- The connection was opened for the statement. -/
  | opened {o answer : Outcome Unit} (h : answer.isDone = true ∨ o = answer) :
    Trip statement false o
      [⟨.opening, false, .done (), true⟩, ⟨statement, true, answer, true⟩] true

namespace Trip

variable {statement : Call} {a b : Bool} {o o' : Outcome Unit} {events : List Event}

/-- What comes after the statement may still fail, but repairs nothing. -/
theorem mono (h : Trip statement a o events b) (ho : o.isDone = true ∨ o' = o) :
    Trip statement a o' events b := by
  cases h with
  | none h =>
    obtain rfl := ho.resolve_left (by simp [h])
    exact .none h
  | refused h =>
    obtain rfl := ho.resolve_left (by simp [h])
    exact .refused h
  | direct h =>
    rcases h with h | rfl
    · exact .direct (.inl h)
    · exact .direct ho
  | opened h =>
    rcases h with h | rfl
    · exact .opened (.inl h)
    · exact .opened ho

/-- The calls of a trip are due. -/
theorem sound (hs : statement.isStatement = true) (h : Trip statement a o events b) :
    Sound a events b := by
  have hopening : Sound false [⟨.opening, false, .done (), true⟩] true :=
    Sound.single (e := ⟨.opening, false, .done (), true⟩) ⟨rfl, rfl⟩
  have hanswer (answer : Outcome Unit) : Sound true [⟨statement, true, answer, true⟩] true := by
    refine Sound.single (e := ⟨statement, true, answer, true⟩) ?_
    cases statement <;> first | exact ⟨rfl, rfl⟩ | cases hs
  cases h with
  | none => exact .nil a
  | @refused o h => exact Sound.single (e := ⟨.opening, false, o, false⟩) ⟨rfl, h.symm⟩
  | direct => exact hanswer _
  | opened => exact hopening.append (hanswer _)

/-- An operation that ended with a result has run its statement once. -/
theorem countP_eq_one (hs : statement.isStatement = true) (h : Trip statement a o events b)
    (ho : o.isDone = true) : events.countP (·.call.isStatement) = 1 := by
  cases h with
  | none h => simp [ho] at h
  | refused h => simp [ho] at h
  | direct => simp [hs]
  | opened => simp [hs, show Call.opening.isStatement = false from rfl]

end Trip

/-- What closing adds to a journal: nothing, or a call to close where the connection was open. -/
inductive Closing : Bool → List Event → Bool → Prop
  /-- There was nothing to close. -/
  | none (b : Bool) : Closing b [] b
  /-- The connection was closed, or failed to be. -/
  | tried (o : Outcome Unit) : Closing true [⟨.closing, true, o, !o.isDone⟩] (!o.isDone)

/-- Closing adds a sound piece to the journal. -/
theorem Closing.sound {a b : Bool} {events : List Event} (h : Closing a events b) :
    Sound a events b := by
  cases h with
  | none => exact .nil a
  | tried o => exact Sound.single (e := ⟨.closing, true, o, !o.isDone⟩) ⟨rfl, rfl⟩

/-! ## Connections -/

namespace Connection

variable {σ α β : Type} (c : Connection σ)

/-- A call that is noted in the journal. -/
def noting (call : Call) (x : Run σ α) : Run (σ × List Event) α := fun s =>
  let (o, s') := x s.1
  (o, s', s.2 ++ [⟨call, c.isOpen s.1, o.forget, c.isOpen s'⟩])

/-- A connection that keeps a journal. -/
def journaled : Connection (σ × List Event) where
  dialect := c.dialect
  isOpen s := c.isOpen s.1
  opening := c.noting .opening c.opening
  closing := c.noting .closing c.closing
  query sql params := c.noting (.query sql params) (c.query sql params)
  modify sql params := c.noting (.modify sql params) (c.modify sql params)

/-- A connection that opens and closes only when it is told to, and is left as it was by a call to
open or to close that does not succeed. -/
structure Steady : Prop where
  opening : ∀ s, c.isOpen s = false → c.isOpen (c.opening s).2 = (c.opening s).1.isDone
  closing : ∀ s, c.isOpen s = true → c.isOpen (c.closing s).2 = !(c.closing s).1.isDone
  query : ∀ sql params s, c.isOpen s = true → c.isOpen (c.query sql params s).2 = true
  modify : ∀ sql params s, c.isOpen s = true → c.isOpen (c.modify sql params s).2 = true

end Connection

/-- A repository whose connection keeps a journal. -/
def Repository.journaled {σ : Type} (r : Repository σ) : Repository (σ × List Event) :=
  ⟨r.connection.journaled, r.entity, r.shape⟩

/-! ## Operations -/

/-- An operation on a held connection that keeps a journal. -/
abbrev JournaledRun (σ α : Type) : Type := Run (Held (σ × List Event)) α

/-- How an operation went on from a state: it has added these events to the journal, has left the
connection unusable if one of them broke off, and has done nothing on an unusable connection. -/
structure Adds {σ α : Type} (x : JournaledRun σ α) (h : Held (σ × List Event))
    (events : List Event) : Prop where
  journal : (x h).2.inner.2 = h.inner.2 ++ events
  breaks : ∀ e ∈ events, e.outcome.isBroken = true → (x h).2.poisoned = true
  unusable : h.poisoned = true → (x h).2 = h

/-- Whether an operation never does anything to the connection. -/
def Quiet {σ α : Type} (x : JournaledRun σ α) : Prop := ∀ h, (x h).2 = h

namespace Held

variable {σ α : Type}

/-- An operation that may hold the connection ends as it does without holding it, and a break makes
the connection unusable. -/
theorem hold_of_usable (x : Run σ α) (s : σ) :
    hold x ⟨s, false⟩ = ((x s).1, ⟨(x s).2, (x s).1.isBroken⟩) := by
  unfold hold
  rw [if_neg Bool.false_ne_true]
  dsimp only
  rcases x s with ⟨_ | _ | _, s⟩ <;> rfl

/-- Nothing is done on a connection that a broken call left unusable. -/
theorem hold_of_poisoned (x : Run σ α) (s : σ) :
    hold x ⟨s, true⟩ = (.failed .lockPoisoned, ⟨s, true⟩) := rfl

/-- What an operation has added to the journal while it held the connection. -/
theorem adds_hold {x : Run (σ × List Event) α} {s : σ × List Event} {events : List Event}
    (hjournal : (x s).2.2 = s.2 ++ events)
    (hbreaks : ∀ e ∈ events, e.outcome.isBroken = true → (x s).1.isBroken = true) :
    Adds (hold x) ⟨s, false⟩ events := by
  have hrun := hold_of_usable x s
  refine ⟨?_, ?_, nofun⟩
  · rw [hrun]
    exact hjournal
  · rw [hrun]
    exact hbreaks

/-- On an unusable connection nothing is added. -/
theorem adds_hold_of_poisoned (x : Run (σ × List Event) α) (s : σ × List Event) :
    Adds (hold x) ⟨s, true⟩ [] := by
  refine ⟨?_, by simp, fun _ => rfl⟩
  rw [hold_of_poisoned, List.append_nil]

end Held

namespace Quiet

variable {σ α β : Type}

/-- A result is no matter of the connection. -/
theorem done (a : α) : Quiet (σ := σ) (Run.done a) := fun _ => rfl

/-- A failure is no matter of the connection. -/
theorem fail (e : QueryError) : Quiet (σ := σ) (α := α) (Run.fail e) := fun _ => rfl

/-- An outcome that is known is no matter of the connection. -/
theorem ofOutcome (o : Outcome α) : Quiet (σ := σ) (Run.ofOutcome o) := fun _ => rfl

/-- Two quiet operations one after the other are quiet. -/
theorem bind {x : JournaledRun σ α} {f : α → JournaledRun σ β} (hx : Quiet x)
    (hf : ∀ a, Quiet (f a)) : Quiet (x >>= f) := by
  intro h
  have hstate := hx h
  show (Run.andThen x f h).2 = h
  unfold Run.andThen
  split <;> simp_all [Quiet]

/-- What leaves the connection alone changes nothing behind an operation. -/
theorem state_bind {f : α → JournaledRun σ β} (hf : ∀ a, Quiet (f a)) (x : JournaledRun σ α)
    (h : Held (σ × List Event)) : ((x >>= f) h).2 = (x h).2 := by
  show (Run.andThen x f h).2 = (x h).2
  unfold Run.andThen
  rcases x h with ⟨a | _ | _, h'⟩
  · exact hf a h'
  · rfl
  · rfl

/-- A quiet operation adds nothing to the journal. -/
theorem adds {x : JournaledRun σ α} (hx : Quiet x) (h : Held (σ × List Event)) : Adds x h [] where
  journal := by rw [hx h, List.append_nil]
  breaks := by simp
  unusable _ := hx h

end Quiet

namespace Connection

variable {σ α β : Type} (c : Connection σ)

/-- How an operation went on from a state, if all it has to do with the connection is to run a
statement. -/
structure Sends (statement : Call) (x : JournaledRun σ α) (h : Held (σ × List Event))
    (events : List Event) : Prop extends Adds x h events where
  trip : Trip statement (c.isOpen h.inner.1) (x h).1.forget events (c.isOpen (x h).2.inner.1)

/-- A statement on the connection, which is opened for it. -/
def onOpen (statement : Call) (x : Run σ α) : Run (σ × List Event) α := do
  c.journaled.ensureOpen
  c.noting statement x

/-- On an open connection the statement is all there is. -/
theorem onOpen_of_open {statement : Call} {x : Run σ α} {s : σ} (log : List Event)
    (hs : c.isOpen s = true) :
    c.onOpen statement x (s, log) = c.noting statement x (s, log) := by
  show Run.andThen c.journaled.ensureOpen _ (s, log) = _
  simp [Run.andThen, ensureOpen, journaled, hs]

/-- On a closed connection the statement is run once the connection is open. -/
theorem onOpen_of_closed {statement : Call} {x : Run σ α} {s : σ} (log : List Event)
    (hs : c.isOpen s = false) :
    c.onOpen statement x (s, log) =
      (c.noting .opening c.opening >>= fun _ => c.noting statement x) (s, log) := by
  show Run.andThen c.journaled.ensureOpen _ (s, log) = Run.andThen _ _ (s, log)
  simp [Run.andThen, ensureOpen, journaled, hs]

/-- A statement on a connection opened for it adds a trip to the journal, and breaks off if one of
its calls did. -/
theorem trip_onOpen (hc : c.Steady) (statement : Call) {x : Run σ α}
    (hx : ∀ s, c.isOpen s = true → c.isOpen (x s).2 = true) (s : σ) (log : List Event) :
    ∃ events, (c.onOpen statement x (s, log)).2.2 = log ++ events ∧
      (∀ e ∈ events, e.outcome.isBroken = true →
        (c.onOpen statement x (s, log)).1.isBroken = true) ∧
      Trip statement (c.isOpen s) (c.onOpen statement x (s, log)).1.forget events
        (c.isOpen (c.onOpen statement x (s, log)).2.1) := by
  cases hs : c.isOpen s with
  | true =>
    rw [c.onOpen_of_open log hs]
    refine ⟨[⟨statement, true, (x s).1.forget, true⟩], ?_, ?_, ?_⟩
    · simp [noting, hs, hx s hs]
    · simp [noting]
    · simpa [noting, hx s hs] using Trip.direct (.inr rfl)
  | false =>
    rw [c.onOpen_of_closed log hs]
    have hopening := hc.opening s hs
    rcases hrun : c.opening s with ⟨o, t⟩
    rw [hrun] at hopening
    cases o with
    | done _ =>
      have hopen : c.isOpen t = true := hopening
      refine ⟨[⟨.opening, false, .done (), true⟩, ⟨statement, true, (x t).1.forget, true⟩],
        ?_, ?_, ?_⟩
      · simp [bind, Run.andThen, noting, hs, hrun, hopen, hx t hopen]
      · simp [bind, Run.andThen, noting, hrun]
      · simpa [bind, Run.andThen, noting, hrun, hx t hopen] using Trip.opened (.inr rfl)
    | failed fault =>
      have hclosed : c.isOpen t = false := hopening
      refine ⟨[⟨.opening, false, .failed fault, false⟩], ?_, ?_, ?_⟩
      · simp [bind, Run.andThen, noting, hs, hrun, hclosed]
      · simp
      · simpa [bind, Run.andThen, noting, hrun, hclosed] using Trip.refused rfl
    | broken =>
      have hclosed : c.isOpen t = false := hopening
      refine ⟨[⟨.opening, false, .broken, false⟩], ?_, ?_, ?_⟩
      · simp [bind, Run.andThen, noting, hs, hrun, hclosed]
      · simp [bind, Run.andThen, noting, hrun]
      · simpa [bind, Run.andThen, noting, hrun, hclosed] using Trip.refused rfl

/-- An operation that holds the connection for a statement. -/
theorem sends_hold (hc : c.Steady) (statement : Call) {x : Run σ α}
    (hx : ∀ s, c.isOpen s = true → c.isOpen (x s).2 = true) (h : Held (σ × List Event)) :
    ∃ events, c.Sends statement (Held.hold (c.onOpen statement x)) h events := by
  obtain ⟨⟨s, log⟩, poisoned⟩ := h
  cases poisoned with
  | true => exact ⟨[], Held.adds_hold_of_poisoned _ _, .none rfl⟩
  | false =>
    obtain ⟨events, hjournal, hbreaks, htrip⟩ := c.trip_onOpen hc statement hx s log
    refine ⟨events, Held.adds_hold hjournal hbreaks, ?_⟩
    rw [Held.hold_of_usable]
    exact htrip

/-- A query sends its statement and does nothing else with the connection. -/
theorem sends_execute (hc : c.Steady) (sql : String) (params : List Value)
    (h : Held (σ × List Event)) :
    ∃ events, c.Sends (.query sql params) (c.journaled.execute sql params) h events :=
  c.sends_hold hc (.query sql params) (hc.query sql params) h

/-- A modification sends its statement and does nothing else with the connection. -/
theorem sends_executeNonQuery (hc : c.Steady) (sql : String) (params : List Value)
    (h : Held (σ × List Event)) :
    ∃ events, c.Sends (.modify sql params) (c.journaled.executeNonQuery sql params) h events :=
  c.sends_hold hc (.modify sql params) (hc.modify sql params) h

/-- What comes after a statement and leaves the connection alone adds nothing. -/
theorem Sends.bind_quiet {statement : Call} {x : JournaledRun σ α} {f : α → JournaledRun σ β}
    {h : Held (σ × List Event)} {events : List Event} (hx : c.Sends statement x h events)
    (hf : ∀ a, Quiet (f a)) : c.Sends statement (x >>= f) h events := by
  have hstate : ((x >>= f) h).2 = (x h).2 := Quiet.state_bind hf x h
  have houtcome : (x h).1.forget.isDone = true ∨ ((x >>= f) h).1.forget = (x h).1.forget := by
    show _ ∨ (Run.andThen x f h).1.forget = _
    unfold Run.andThen
    rcases x h with ⟨a | _ | _, h'⟩
    · exact .inl rfl
    · exact .inr rfl
    · exact .inr rfl
  obtain ⟨⟨hjournal, hbreaks, hunusable⟩, htrip⟩ := hx
  refine ⟨⟨?_, ?_, ?_⟩, ?_⟩ <;> rw [hstate]
  · exact hjournal
  · exact hbreaks
  · exact hunusable
  · exact htrip.mono houtcome

/-- Closing reaches an open connection only. -/
theorem adds_close (hc : c.Steady) (h : Held (σ × List Event)) :
    ∃ events, Adds c.journaled.close h events ∧
      Closing (c.isOpen h.inner.1) events (c.isOpen (c.journaled.close h).2.inner.1) := by
  obtain ⟨⟨s, log⟩, poisoned⟩ := h
  cases poisoned with
  | true => exact ⟨[], Held.adds_hold_of_poisoned _ _, .none _⟩
  | false =>
    cases hs : c.isOpen s with
    | false =>
      have hrun : c.journaled.ensureClosed (s, log) = (.done (), s, log) := by
        simp [ensureClosed, journaled, hs]
      refine ⟨[], Held.adds_hold (by rw [hrun]; simp) (by simp), ?_⟩
      unfold close
      rw [Held.hold_of_usable, hrun]
      simpa [hs] using Closing.none false
    | true =>
      have hclosing := hc.closing s hs
      have hrun : c.journaled.ensureClosed (s, log) = c.noting .closing c.closing (s, log) := by
        simp [ensureClosed, journaled, hs]
      refine ⟨[⟨.closing, true, (c.closing s).1.forget, !(c.closing s).1.isDone⟩],
        Held.adds_hold ?_ ?_, ?_⟩
      · rw [hrun]
        simp [noting, hs, hclosing]
      · rw [hrun]
        simp [noting]
      · unfold close
        rw [Held.hold_of_usable, hrun]
        simpa [noting, hclosing] using Closing.tried (c.closing s).1.forget

end Connection

/-! ## Connections that follow a script -/

/-- Whatever its script says, a scripted connection opens and closes only when it is told to. -/
theorem Script.steady (d : Dialect) : (Script.connection d).Steady where
  opening s hs := by
    show (Script.settle _ _ true).isOpen = (nextOutcome () s.opens).isDone
    unfold Script.settle
    cases nextOutcome () s.opens <;> first | rfl | exact hs
  closing s hs := by
    show (Script.settle _ _ false).isOpen = !(nextOutcome () s.closes).isDone
    unfold Script.settle
    cases nextOutcome () s.closes <;> first | rfl | exact hs
  query sql params s hs := hs
  modify sql params s hs := hs

/-- The users behind a scripted connection. -/
def scriptedUsers : Repository Script :=
  ⟨Script.connection .sqlServer, Sample.users, Sample.user⟩

end SqlCompose
