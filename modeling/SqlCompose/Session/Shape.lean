import SqlCompose.Json.Decoding

/-!
# Shapes of rows

A row is read at a shape: a single value of some type, or a structure whose members are listed in
an order of their own. A structure is read from an object, whose members are met in the order of
their names, or from an array with its members in order.
-/

namespace SqlCompose

/-- The type of a single value. -/
inductive CellShape where
  /-- Any JSON value. -/
  | any
  /-- A string. -/
  | text
  /-- A signed word. -/
  | integer
  /-- A floating-point number. -/
  | floating
  /-- A truth value. -/
  | truth
deriving DecidableEq, Repr

/-- A single value that may be null. -/
structure Cell where
  /-- The type of the value. -/
  shape : CellShape
  /-- Whether null is allowed. -/
  optional : Bool := false
deriving DecidableEq, Repr

/-- A member of a structure. -/
structure Member where
  /-- The name of the member. -/
  name : String
  /-- Its value. -/
  cell : Cell
deriving DecidableEq, Repr

/-- What a row is read as. -/
inductive Shape where
  /-- A single value. -/
  | cell (cell : Cell)
  /-- A structure with a name. -/
  | structure (name : String) (members : List Member)
deriving DecidableEq, Repr

/-- A row that has been read. -/
inductive Datum where
  /-- A single value. -/
  | plain (json : Json)
  /-- The members of a structure, in the order of the structure. -/
  | structure (members : List (String × Json))

namespace Datum

/-- A row as JSON; members are listed by name. -/
def toJson : Datum → Json
  | .plain json => json
  | .structure members => .ofMembers members

/-- A row as JSON text; members keep the order of their structure. -/
def write : Datum → String
  | .plain json => json.write
  | .structure members => Json.write (.object members)

end Datum

/-! ## Reading -/

namespace CellShape

/-- A value read as a type. -/
def decode : CellShape → Json → Except Json.DecodeFault Json
  | .any, json => .ok json
  | .text, json => json.decodeString.map Json.string
  | .integer, json => json.decodeInt64.map Json.ofInt64
  | .floating, json => json.decodeDouble.map Json.ofDouble
  | .truth, json => json.decodeBool.map Json.bool

end CellShape

/-- A value read as a type that may allow null. -/
def Cell.decode (c : Cell) (json : Json) : Except Json.DecodeFault Json :=
  if c.optional && json.isNull then .ok .null else c.shape.decode json

namespace Shape

/-- The members of an object that a structure has, read in the order of their names. -/
def decodeMembers (members : List Member) :
    List (String × Json) → Except Json.DecodeFault (List (String × Json))
  | [] => .ok []
  | (name, json) :: rest =>
    match members.find? fun m => m.name == name with
    | some m => do
      let value ← m.cell.decode json
      .ok ((name, value) :: (← decodeMembers members rest))
    | none => decodeMembers members rest

/-- The members of a structure in its order; one that was not met is null where null is
allowed. -/
def collect (found : List (String × Json)) :
    List Member → Except Json.DecodeFault (List (String × Json))
  | [] => .ok []
  | m :: members => do
    let value ←
      match found.lookup m.name with
      | some json => .ok json
      | none => if m.cell.optional then .ok .null else .error (.missingField m.name)
    .ok ((m.name, value) :: (← collect found members))

/-- The members of a structure from the items of an array, counted from an index on. -/
def decodeItems (expected : String) :
    Nat → List Member → List Json → Except Json.DecodeFault (List (String × Json))
  | _, [], [] => .ok []
  | index, [], items => .error (.wrongLength (index + items.length) "fewer elements in array")
  | index, _ :: _, [] => .error (.wrongLength index expected)
  | index, m :: members, json :: items => do
    let value ← m.cell.decode json
    .ok ((m.name, value) :: (← decodeItems expected (index + 1) members items))

/-- A JSON value read at a shape. -/
def decode : Shape → Json → Except Json.DecodeFault Datum
  | .cell c, json => (c.decode json).map .plain
  | .structure _ members, .object fields => do
    let found ← decodeMembers members fields
    .ok (.structure (← collect found members))
  | .structure name members, .array items => do
    let count := toString members.length
    let expected := "struct " ++ name ++ " with " ++ count ++ " elements"
    .ok (.structure (← decodeItems expected 0 members items))
  | .structure name _, json => json.unexpected ("struct " ++ name)

end Shape

end SqlCompose
