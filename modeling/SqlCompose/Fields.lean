/-!
# Named fields

A record holds each name once and lists its fields by name, in the order of code points. Fields
are kept as a list of pairs; `insert` keeps the order and lets a later value replace an earlier
one.
-/

namespace SqlCompose

/-- Values under names, in the order of the names. -/
abbrev Fields (α : Type) := List (String × α)

namespace Fields

variable {α : Type}

/-- Put a value under a name, in the place of the value that was there. -/
def insert (name : String) (value : α) : Fields α → Fields α
  | [] => [(name, value)]
  | (key, old) :: rest =>
    if name = key then (name, value) :: rest
    else if name < key then (name, value) :: (key, old) :: rest
    else (key, old) :: insert name value rest

/-- The fields with these values, a later value replacing an earlier one. -/
def ofList (pairs : List (String × α)) : Fields α :=
  pairs.foldl (fun fields (name, value) => insert name value fields) []

/-- The value under a name. -/
def get? (fields : Fields α) (name : String) : Option α := fields.lookup name

/-- The value put under a name is found there. -/
theorem get?_insert_self (fields : Fields α) (name : String) (value : α) :
    get? (insert name value fields) name = some value := by
  induction fields with
  | nil => simp [insert, get?]
  | cons field rest ih =>
    obtain ⟨key, old⟩ := field
    simp only [insert]
    split
    · simp [get?]
    · split
      · simp [get?]
      · rename_i h _
        simpa [get?, List.lookup_cons, beq_eq_false_iff_ne.mpr h] using ih

/-- Putting a value under one name leaves every other name alone. -/
theorem get?_insert_of_ne (fields : Fields α) {name other : String} (value : α)
    (h : other ≠ name) : get? (insert name value fields) other = get? fields other := by
  induction fields with
  | nil => simp [insert, get?, List.lookup_cons, beq_eq_false_iff_ne.mpr h]
  | cons field rest ih =>
    obtain ⟨key, old⟩ := field
    simp only [insert]
    split
    · rename_i e
      subst e
      simp [get?, List.lookup_cons, beq_eq_false_iff_ne.mpr h]
    · split
      · simp [get?, List.lookup_cons, beq_eq_false_iff_ne.mpr h]
      · by_cases e : other = key
        · subst e
          simp [get?]
        · simpa [get?, List.lookup_cons, beq_eq_false_iff_ne.mpr e] using ih

end Fields

end SqlCompose
