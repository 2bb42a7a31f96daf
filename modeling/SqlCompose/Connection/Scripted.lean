import SqlCompose.Connection.Basic

/-!
# Connections that follow a script

A script says for every call how it ends; a call beyond the end of the script succeeds with an
empty answer. All calls are noted before their outcome is known. A call to open that does not
succeed leaves the connection closed, and a call to close that does not succeed leaves it open.
-/

namespace SqlCompose

/-- How a call of a scripted connection ends. -/
inductive Cue (α : Type) where
  /-- With a result. -/
  | succeed (a : α)
  /-- With an error of the connection. -/
  | fail (detail : String)
  /-- It breaks off. -/
  | breakOff

/-- The outcome of a call. -/
def Cue.outcome {α : Type} : Cue α → Outcome α
  | .succeed a => .done a
  | .fail detail => .failed (.dataAccess detail)
  | .breakOff => .broken

/-- A call that has reached a connection. -/
inductive Call where
  /-- To open it. -/
  | opening
  /-- To close it. -/
  | closing
  /-- To run a statement for its rows. -/
  | query (sql : String) (params : List Value)
  /-- To run a statement for the number of rows it affects. -/
  | modify (sql : String) (params : List Value)

/-- The state of a scripted connection. -/
structure Script where
  /-- How the next calls to open end. -/
  opens : List (Cue Unit) := []
  /-- How the next calls to close end. -/
  closes : List (Cue Unit) := []
  /-- What the next queries answer. -/
  results : List (Cue ResultSet) := []
  /-- What the next modifications answer. -/
  affected : List (Cue UInt64) := []
  /-- Whether the connection is open. -/
  isOpen : Bool := false
  /-- The calls so far, the first one first. -/
  calls : List Call := []

namespace Script

/-- A script with a call noted. -/
def note (s : Script) (call : Call) : Script := { s with calls := s.calls ++ [call] }

/-- A script with the state of the connection after a call that was to change it. -/
def settle (s : Script) (o : Outcome Unit) (isOpen : Bool) : Script :=
  match o with
  | .done _ => { s with isOpen := isOpen }
  | _ => s

/-- The outcome that comes next in a list of cues. -/
def nextOutcome {α : Type} (default : α) (cues : List (Cue α)) : Outcome α :=
  (cues.head?.getD (.succeed default)).outcome

/-- Open the connection. -/
def opening : Run Script Unit := fun s =>
  let o := nextOutcome () s.opens
  (o, { s.note .opening with opens := s.opens.drop 1 }.settle o true)

/-- Close the connection. -/
def closing : Run Script Unit := fun s =>
  let o := nextOutcome () s.closes
  (o, { s.note .closing with closes := s.closes.drop 1 }.settle o false)

/-- Run a statement for its rows. -/
def query (sql : String) (params : List Value) : Run Script ResultSet := fun s =>
  (nextOutcome .empty s.results, { s.note (.query sql params) with results := s.results.drop 1 })

/-- Run a statement for the number of rows it affects. -/
def modify (sql : String) (params : List Value) : Run Script UInt64 := fun s =>
  (nextOutcome 0 s.affected, { s.note (.modify sql params) with affected := s.affected.drop 1 })

/-- The connection that follows scripts. -/
def connection (d : Dialect) : Connection Script where
  dialect := d
  isOpen s := s.isOpen
  opening := opening
  closing := closing
  query := query
  modify := modify

end Script

end SqlCompose
