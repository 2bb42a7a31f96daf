import SqlCompose.Profile.Basic
import SqlCompose.Toml.Reading
import SqlCompose.Toml.Writing

/-!
# Saved profiles

Profiles are saved as an array of tables, one member for each part. A password is read but never
written. Parts with a default may be left out; parts that are not known are passed over.
-/

namespace SqlCompose

/-- Why no profile can be given. -/
inductive ProfileFault where
  /-- The saved profiles cannot be read. -/
  | unreadable
  /-- No saved profile has this name. -/
  | missing (name path : String)
deriving DecidableEq, Repr

/-- A fault in words. -/
def ProfileFault.message : ProfileFault → String
  | .unreadable => "Failed to parse saved connections"
  | .missing name path => "No saved connection named '" ++ name ++ "' in " ++ path

/-! ## Parts -/

/-- The mode that a string names, or that is the only key of a table, with nothing under it. -/
def SslMode.ofToml? : Toml → Option SslMode
  | .string s => ofName? s
  | .table _ [(name, value)] => if value.isVoid then ofName? name else none
  | _ => none

namespace Profile

/-- The names of the parts, in the order in which they are listed. -/
def partNames : List String :=
  ["name", "provider", "host", "port", "database", "username", "password", "ssl_mode",
    "accept_invalid_certs", "ca_cert_path"]

/-- The TCP number that an integer is. -/
def tcpPortOfToml? : Toml → Option UInt16
  | .integer n => if 0 ≤ n ∧ n < 65536 then some (UInt16.ofNat n.toNat) else none
  | _ => none

/-- A part that may be left out. -/
def optionalPart {α : Type} (read? : Toml → Option α) (default : α) : Option Toml → Option α
  | none => some default
  | some value => read? value

/-- The profile with the parts that a look-up finds. -/
def ofParts? (part : String → Option Toml) : Option Profile := do
  let usual : Profile := {}
  some {
    name := ← (part "name").bind Toml.asString?
    provider := ← optionalPart Toml.asString? usual.provider (part "provider")
    host := ← (part "host").bind Toml.asString?
    tcpPort := ← (part "port").bind tcpPortOfToml?
    database := ← (part "database").bind Toml.asString?
    username := ← (part "username").bind Toml.asString?
    password := ← optionalPart Toml.asString? usual.password (part "password")
    sslMode := ← optionalPart SslMode.ofToml? usual.sslMode (part "ssl_mode")
    acceptsAnyCertificate :=
      ← optionalPart Toml.asBool? usual.acceptsAnyCertificate (part "accept_invalid_certs")
    authorityFile :=
      ← optionalPart (fun value => value.asString?.map some) usual.authorityFile
        (part "ca_cert_path") }

/-- The profile that a table holds under the names of its parts, or an array in their order. -/
def ofToml? : Toml → Option Profile
  | .table _ members => ofParts? fun name => Fields.get? members name
  | .array items => ofParts? fun name => (partNames.zip items).lookup name
  | _ => none

/-- The parts of a profile that are saved. -/
def savedParts (p : Profile) : List (String × Toml.Scalar) :=
  [("name", .string p.name), ("provider", .string p.provider), ("host", .string p.host),
    ("port", .natural p.tcpPort.toNat), ("database", .string p.database),
    ("username", .string p.username), ("ssl_mode", .string p.sslMode.name),
    ("accept_invalid_certs", .boolean p.acceptsAnyCertificate)] ++
  match p.authorityFile with
  | some path => [("ca_cert_path", .string path)]
  | none => []

/-! ## Files -/

/-- The member of a file that holds the profiles. -/
def fileKey : String := "connections"

/-- The profiles that a file holds. -/
def readAll? (text : String) : Option (List Profile) := do
  let members ← Toml.readDocument? text
  let items ← (← Fields.get? members fileKey).asItems?
  items.mapM ofToml?

/-- The profiles as a file, with a way of writing strings. -/
def writeAllWith (quote : String → String) (profiles : List Profile) : String :=
  Toml.writeTables quote fileKey (profiles.map savedParts)

/-- The profiles as a file. -/
def writeAll (profiles : List Profile) : String := writeAllWith Toml.quote profiles

/-- The saved profiles, given the text of the file if there is one. -/
def load : Option String → Except ProfileFault (List Profile)
  | none => .ok []
  | some text =>
    match readAll? text with
    | some profiles => .ok profiles
    | none => .error .unreadable

/-- The first saved profile with a name, given the text and the path of the file. -/
def find (file : Option String) (path name : String) : Except ProfileFault Profile := do
  let profiles ← load file
  match profiles.find? fun p => p.name == name with
  | some p => .ok p
  | none => .error (.missing name path)

end Profile

end SqlCompose
