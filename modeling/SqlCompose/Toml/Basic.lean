import SqlCompose.Binary.Double
import SqlCompose.Fields

/-!
# Trees of a TOML document

A document is a table of values under keys. How a table has come about decides what may still be
added to it: a header declares a table once, dotted keys add to tables of their own only, and
nothing is added to a table in braces. `addAt`, `declareTable` and `declareElement` are the three
ways in which a document grows; each is undefined where the document would contradict itself.
-/

namespace SqlCompose

/-- How a table has come about. -/
inductive Toml.Standing where
  /-- A header names it. -/
  | declared
  /-- A header names a table within it. -/
  | implied
  /-- A dotted key leads through it. -/
  | dotted
  /-- It is written in braces. -/
  | sealed
deriving DecidableEq, Repr

/-- A value of a document. -/
inductive Toml where
  /-- A string. -/
  | string (s : String)
  /-- An integer. -/
  | integer (n : Int)
  /-- A floating-point number. -/
  | float (x : Double)
  /-- A truth value. -/
  | boolean (b : Bool)
  /-- A date, a time of day or both, as it is written. -/
  | moment (text : String)
  /-- An array written in brackets. -/
  | array (items : List Toml)
  /-- An array of tables that headers declare one by one. -/
  | tables (items : List Toml)
  /-- A table. -/
  | table (standing : Toml.Standing) (members : List (String × Toml))

namespace Toml

/-! ## Parts of values -/

/-- The text of a string. -/
def asString? : Toml → Option String
  | .string s => some s
  | _ => none

/-- The truth value. -/
def asBool? : Toml → Option Bool
  | .boolean b => some b
  | _ => none

/-- The items of an array, however it is written. -/
def asItems? : Toml → Option (List Toml)
  | .array items | .tables items => some items
  | _ => none

/-- Whether a value is a table or an array with nothing in it. -/
def isVoid : Toml → Bool
  | .table _ [] | .array [] => true
  | _ => false

/-! ## Growing a document -/

/-- What happens to a table that a path leads to. -/
abbrev Change : Type := Standing → Fields Toml → Option (Fields Toml)

/-- Whether a path may lead on through a table. -/
def Standing.admits (dottedKey : Bool) : Standing → Bool
  | .declared => !dottedKey
  | .implied | .dotted => true
  | .sealed => false

/-- Change the table at the end of a path, whose parts come from a dotted key or from a header.
Tables that are missing on the way are made; an array of tables stands for its last table. -/
def changeAt (dottedKey : Bool) (change : Change) : List String → Change
  | [], standing, members => change standing members
  | key :: path, _, members => do
    let child ←
      match Fields.get? members key with
      | none =>
        let standing := if dottedKey then .dotted else .implied
        some (.table standing (← changeAt dottedKey change path standing []))
      | some (.table standing inner) =>
        if standing.admits dottedKey then
          some (.table standing (← changeAt dottedKey change path standing inner))
        else none
      | some (.tables items) =>
        match items.getLast? with
        | some (.table standing inner) =>
          let changed ← changeAt dottedKey change path standing inner
          some (.tables (items.dropLast ++ [.table standing changed]))
        | _ => none
      | some _ => none
    some (Fields.insert key child members)

/-- Add a value under a key that is not taken. -/
def addMember (key : String) (value : Toml) (members : Fields Toml) : Option (Fields Toml) :=
  if (Fields.get? members key).isSome then none else some (Fields.insert key value members)

/-- Add a value under a dotted key; the path is the key without its last part. -/
def addAt (path : List String) (key : String) (value : Toml) : Change :=
  changeAt true (fun standing members =>
    if path.isEmpty || standing == .dotted then addMember key value members else none) path

/-- Declare a table; the path is the header without its last part. -/
def declareTable (path : List String) (key : String) : Change :=
  changeAt false (fun _ members =>
    match Fields.get? members key with
    | none => some (Fields.insert key (.table .declared []) members)
    | some (.table .implied inner) => some (Fields.insert key (.table .declared inner) members)
    | some _ => none) path

/-- Declare one more table of an array; the path is the header without its last part. -/
def declareElement (path : List String) (key : String) : Change :=
  changeAt false (fun _ members =>
    match Fields.get? members key with
    | none => some (Fields.insert key (.tables [.table .declared []]) members)
    | some (.tables items) =>
      some (Fields.insert key (.tables (items ++ [.table .declared []])) members)
    | some _ => none) path

end Toml

end SqlCompose
