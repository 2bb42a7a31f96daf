import SqlCompose.Entity.Basic
import SqlCompose.Session.Shape

/-!
# A table of users

A small entity for examples: users with a key, a name, an optional address for mail, an age and a
mark for the active ones.
-/

namespace SqlCompose.Sample

/-- The table of users. -/
def users : Entity :=
  (Entity.ofTable "users").addColumn "id" .int |>.addColumn "name" .text
    |>.addColumn "email" .text |>.addColumn "age" .int |>.addColumn "active" .bool

/-- A user. -/
def user : Shape :=
  .structure "User"
    [⟨"id", ⟨.integer, false⟩⟩, ⟨"name", ⟨.text, false⟩⟩, ⟨"email", ⟨.text, true⟩⟩,
      ⟨"age", ⟨.integer, false⟩⟩, ⟨"active", ⟨.truth, false⟩⟩]

end SqlCompose.Sample
