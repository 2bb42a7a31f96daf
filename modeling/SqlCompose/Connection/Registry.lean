import SqlCompose.Error
import SqlCompose.Profile.Basic
import SqlCompose.Text.Ascii

/-!
# Registered providers

A registry knows how connections are made for the providers that profiles name. The case of ASCII
letters in a name does not matter, and a provider that is registered again is replaced.
-/

namespace SqlCompose

/-- A way to make a connection for a profile. -/
abbrev ConnectionFactory (γ : Type) : Type := Profile → Except QueryError γ

/-- The providers of a kind of connection, under their names in lower case; the one registered last
stands first. -/
structure Registry (γ : Type) where
  /-- The providers. -/
  factories : List (String × ConnectionFactory γ)

namespace Registry

variable {γ : Type}

/-- The registry without providers. -/
def empty : Registry γ := ⟨[]⟩

/-- A registry with one more provider. -/
def register (r : Registry γ) (name : String) (factory : ConnectionFactory γ) : Registry γ :=
  ⟨(Text.asciiLower name, factory) :: r.factories⟩

/-- The provider with a name. -/
def find? (r : Registry γ) (name : String) : Option (ConnectionFactory γ) :=
  r.factories.lookup (Text.asciiLower name)

/-- Whether there is a provider with a name. -/
def contains (r : Registry γ) (name : String) : Bool := (r.find? name).isSome

/-- A connection for a profile, made by the provider that it names. -/
def connect (r : Registry γ) (p : Profile) : Except QueryError γ :=
  match r.find? p.provider with
  | some factory => factory p
  | none => .error (.unknownProvider p.provider)

/-- The names of the provider for PostgreSQL. -/
def postgresNames : List String := ["postgres", "postgresql", "pg", "npgsql"]

/-- The registry with a provider for PostgreSQL under its usual names. -/
def ofPostgres (factory : ConnectionFactory γ) : Registry γ :=
  postgresNames.foldl (fun r name => r.register name factory) empty

end Registry

end SqlCompose
