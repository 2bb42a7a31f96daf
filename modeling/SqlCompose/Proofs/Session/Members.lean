import SqlCompose.Proofs.Entity.Fields
import SqlCompose.Proofs.Query.Walk
import SqlCompose.Session.Repository

/-!
# Types of rows whose JSON form round-trips

A type of rows is known by how its rows are written as JSON and read from it. Its forms at a field
are the records of its rows, with this field set to any value (`RowType.Form`). The JSON form of a
type round-trips at a field if every such form that is read at all is what the row is written as
(`RowType.RoundTrips`). Of the rows of a shape this holds exactly if the field is read as anything
but a floating-point number, whatever the other members are (`Shape.roundTrips_iff`): users, for one,
and all JSON objects. It holds of a type as well that refuses some of these rows, say those whose key
is out of a range (`RowType.RoundTrips.restricted`).
-/

namespace SqlCompose

/-! ## Fields by name -/

namespace Fields

variable {α : Type}

/-- A name in front of all others is not found. -/
theorem get?_eq_none_of_forall_lt {fields : Fields α} {name : String}
    (h : ∀ field ∈ fields, name < field.1) : get? fields name = none := by
  refine List.lookup_eq_none_iff.mpr fun field hfield => ?_
  exact bne_iff_ne.mpr fun heq => String.lt_irrefl _ (heq ▸ h field hfield)

/-- The first name is not behind any name that is found. -/
theorem IsSorted.first_le {field : String × α} {rest : Fields α} (h : IsSorted (field :: rest))
    {name : String} {value : α} (hname : get? (field :: rest) name = some value) :
    field.1 ≤ name := by
  obtain ⟨hfirst, -⟩ := List.pairwise_cons.mp h
  refine String.not_lt.mp fun hlt => ?_
  have hnone : get? (field :: rest) name = none :=
    get?_eq_none_of_forall_lt (List.forall_mem_cons.mpr
      ⟨hlt, fun other hother => String.lt_trans hlt (hfirst other hother)⟩)
  rw [hname] at hnone
  cases hnone

/-- The first pair of a list is found under its name. -/
theorem get?_cons_self (name : String) (value : α) (rest : Fields α) :
    get? ((name, value) :: rest) name = some value := List.lookup_cons_self

/-- Fields in order are the same if the same values are found in them. -/
theorem IsSorted.ext {a b : Fields α} (ha : IsSorted a) (hb : IsSorted b)
    (h : ∀ name, get? a name = get? b name) : a = b := by
  induction a generalizing b with
  | nil =>
    cases b with
    | nil => rfl
    | cons field b => cases (h field.1).trans (get?_cons_self field.1 field.2 b)
  | cons field a ih =>
    obtain ⟨name, value⟩ := field
    have hfound := get?_cons_self name value a
    cases b with
    | nil => cases hfound.symm.trans (h name)
    | cons field b =>
      obtain ⟨name', value'⟩ := field
      have hfound' := get?_cons_self name' value' b
      have hname : name = name' := String.le_antisymm (ha.first_le ((h name').trans hfound'))
        (hb.first_le ((h name).symm.trans hfound))
      subst hname
      have hvalue : value = value' :=
        Option.some.inj (hfound.symm.trans ((h name).trans hfound'))
      subst hvalue
      obtain ⟨hfirst, hrest⟩ := List.pairwise_cons.mp ha
      obtain ⟨hfirst', hrest'⟩ := List.pairwise_cons.mp hb
      refine congrArg _ (ih hrest hrest' fun other => ?_)
      by_cases hother : other = name
      · subst hother
        rw [get?_eq_none_of_forall_lt hfirst, get?_eq_none_of_forall_lt hfirst']
      · simpa [get?, List.lookup_cons, beq_eq_false_iff_ne.mpr hother] using h other

/-- What is found in fields whose values go by their names. -/
theorem get?_ofList_map (names : List String) (f : String → α) (name : String) :
    get? (ofList (names.map fun name => (name, f name))) name =
      if name ∈ names then some (f name) else none := by
  induction names using List.reverseRecOn with
  | nil => rfl
  | append_singleton names last ih =>
    rw [List.map_append, List.map_singleton, ofList_append_singleton]
    by_cases hlast : name = last
    · subst hlast
      rw [get?_insert_self, if_pos (by simp)]
    · rw [get?_insert_of_ne _ _ hlast, ih]
      simp [hlast]

end Fields

/-! ## Types of rows -/

namespace RowType

variable {α : Type} (T : RowType α)

/-- Whether a row of a type that is read back from its record has a field. -/
def HasField (name : String) : Prop :=
  ∃ x record, T.encode x = .ok (.object record) ∧ T.decode (.object record) = .ok x ∧
    (Fields.get? record name).isSome = true

/-- The forms of a type at a field: the records of its rows that are read back, with the field, if
it is one of the type, set to any value. -/
inductive Form (name : String) : Fields Json → Prop
  /-- The record of a row. -/
  | row {x : α} {record : Fields Json} (hx : T.encode x = .ok (.object record))
    (hback : T.decode (.object record) = .ok x) : Form name record
  /-- A form with the field set. -/
  | set {record : Fields Json} (json : Json) (h : Form name record) (hname : T.HasField name) :
    Form name (Fields.insert name json record)

/-- Whether the JSON form of a type round-trips at a field: a form that is read is what the row is
written as. -/
def RoundTrips (name : String) : Prop := ∀ record y, T.Form name record →
  T.decode (.object record) = .ok y → T.encode y = .ok (.object record)

/-- The rows of a type that pass a check; all others are refused when they are read. -/
def restricted (check : α → Bool) (fault : QueryError) : RowType α where
  encode := T.encode
  decode json := do
    let x ← T.decode json
    if check x then .ok x else .error fault

variable {T} {check : α → Bool} {fault : QueryError}

/-- What a type reads under a check is what it reads without, and passes. -/
theorem decode_restricted {json : Json} {x : α} :
    (T.restricted check fault).decode json = .ok x ↔ T.decode json = .ok x ∧ check x = true := by
  refine bind_eq_ok.trans ⟨?_, fun h => ⟨x, h.1, if_pos h.2⟩⟩
  rintro ⟨y, hy, hx⟩
  split at hx
  · rename_i hcheck
    obtain rfl := Except.ok.inj hx
    exact ⟨hy, hcheck⟩
  · cases hx

/-- A form under a check is a form. -/
theorem Form.of_restricted {name : String} {record : Fields Json}
    (h : (T.restricted check fault).Form name record) : T.Form name record := by
  induction h with
  | row hx hback => exact .row hx (decode_restricted.mp hback).1
  | set json _ hname ih =>
    obtain ⟨x, record, hx, hback, hfound⟩ := hname
    exact .set json ih ⟨x, record, hx, (decode_restricted.mp hback).1, hfound⟩

/-- A type that refuses more round-trips where it did. -/
theorem RoundTrips.restricted {name : String} (h : T.RoundTrips name) :
    (T.restricted check fault).RoundTrips name := fun record y hform hy =>
  h record y hform.of_restricted (decode_restricted.mp hy).1

end RowType

/-! ## Values that are read as they are -/

/-- Whether a value that is read at a type is kept as it is. An integer that is read as a
floating-point number is not. -/
def CellShape.isExact : CellShape → Bool
  | .floating => false
  | .any | .text | .integer | .truth => true

/-- What is read at an exact type is the value itself. -/
theorem CellShape.eq_of_decode {t : CellShape} (ht : t.isExact = true) {json w : Json}
    (h : t.decode json = .ok w) : w = json := by
  cases t with
  | floating => cases ht
  | any => exact (Except.ok.inj h).symm
  | text =>
    cases json with
    | string s => exact (Except.ok.inj h).symm
    | null | bool | number | array | object => cases h
  | truth =>
    cases json with
    | bool b => exact (Except.ok.inj h).symm
    | null | string | number | array | object => cases h
  | integer =>
    cases json with
    | number n =>
      cases n with
      | float x hx => cases h
      | int n hn =>
        rw [decode, Json.decodeInt64] at h
        split at h
        · rename_i hlt
          obtain rfl : Json.ofInt64 (Int64.ofInt n) = w := Except.ok.inj h
          have hlow : -0x8000000000000000 ≤ n := (of_decide_eq_true hn).1
          have hn' : (Int64.ofInt n).toInt = n := Int64.toInt_ofInt_of_le hlow hlt
          simp only [Json.ofInt64, hn']
        · cases h
    | null | bool | string | array | object => cases h

/-- A signed word is read as itself. -/
theorem CellShape.decode_ofInt64 (i : Int64) :
    CellShape.integer.decode (.ofInt64 i) = .ok (.ofInt64 i) := by
  have hrange : i.toInt < 0x8000000000000000 := i.toInt_lt
  rw [decode, Json.ofInt64, Json.decodeInt64, if_pos hrange, Int64.ofInt_toInt]
  rfl

/-- What is read as a value of an exact type, or as null, is the value itself. -/
theorem Cell.eq_of_decode {c : Cell} (hc : c.shape.isExact = true) {json w : Json}
    (h : c.decode json = .ok w) : w = json := by
  rw [decode] at h
  split at h
  · rename_i hnull
    have hjson : json = .null := by
      cases json with
      | null => rfl
      | bool | number | string | array | object => simp [Json.isNull] at hnull
    rw [hjson]
    exact (Except.ok.inj h).symm
  · exact CellShape.eq_of_decode hc h

/-- A floating-point number is not written as an integer. -/
theorem Json.ofDouble_ne_ofInt64 (x : Double) (i : Int64) : Json.ofDouble x ≠ .ofInt64 i := by
  unfold Json.ofDouble
  split <;> exact fun h => by cases h

/-- At a type that is not exact, an integer is read as another value. -/
theorem Cell.exists_decode_of_not_exact {c : Cell} (hc : ¬ c.shape.isExact = true) (i : Int64) :
    ∃ w, c.decode (.ofInt64 i) = .ok w ∧ w ≠ .ofInt64 i := by
  have hnull : (Json.ofInt64 i).isNull = false := rfl
  rw [decode, hnull, Bool.and_false, if_neg (by simp)]
  cases hshape : c.shape with
  | floating => exact ⟨_, rfl, Json.ofDouble_ne_ofInt64 _ i⟩
  | any | text | integer | truth =>
    rw [hshape] at hc
    exact absurd rfl hc

/-- What a shape reads is what its type of rows reads. -/
theorem Shape.decode_rowType {s : Shape} {json : Json} {x : Datum} :
    s.rowType.decode json = .ok x ↔ s.decode json = .ok x := by
  show (s.decode json).mapError _ = _ ↔ _
  cases s.decode json <;> simp [Except.mapError]

/-- What a row of a shape is written as. -/
theorem Shape.encode_rowType {s : Shape} {x : Datum} {json : Json} :
    s.rowType.encode x = .ok json ↔ x.toJson = json := by
  simp [rowType]

namespace Shape

/-- Whether the value of a field in the rows of a shape is kept as it is read. -/
def isExact (name : String) : Shape → Bool
  | .cell _ => true
  | .structure _ members => (members.find? fun m => m.name == name).all fun m => m.cell.shape.isExact

/-! ## Objects that are single values -/

/-- A single value that is an object is read as it is. -/
theorem decode_cell {c : Cell} {record : Fields Json} {x : Datum}
    (h : (Shape.cell c).decode (.object record) = .ok x) : x = .plain (.object record) := by
  have hnull : (Json.object record).isNull = false := rfl
  rw [decode, Cell.decode, hnull, Bool.and_false, if_neg (by simp)] at h
  cases hshape : c.shape with
  | any =>
    rw [hshape] at h
    exact (Except.ok.inj h).symm
  | text | integer | floating | truth =>
    rw [hshape] at h
    cases h

/-- A JSON object may have any field. -/
theorem hasField_any (optional : Bool) (name : String) :
    (Shape.cell ⟨.any, optional⟩).rowType.HasField name := by
  refine ⟨.plain (.object [(name, .null)]), _, rfl, decode_rowType.mpr ?_, ?_⟩
  · cases optional <;> rfl
  · rw [Fields.get?_cons_self]
    rfl

/-! ## Members that are read -/

variable {members : List Member} {fields found : List (String × Json)}

/-- The first field of an object is read if it is a member, and passed over if it is none. -/
theorem decodeMembers_cons {name : String} {json : Json} :
    decodeMembers members ((name, json) :: fields) = .ok found ↔
      ((members.find? fun m => m.name == name) = none ∧ decodeMembers members fields = .ok found) ∨
      ∃ m value rest, (members.find? fun m => m.name == name) = some m ∧
        m.cell.decode json = .ok value ∧ decodeMembers members fields = .ok rest ∧
        found = (name, value) :: rest := by
  rw [decodeMembers]
  cases hm : members.find? fun m => m.name == name with
  | none => simp
  | some m =>
    simp only [reduceCtorEq, false_and, Option.some.injEq, false_or]
    constructor
    · intro h
      obtain ⟨value, hvalue, h⟩ := bind_eq_ok.mp h
      obtain ⟨rest, hrest, h⟩ := bind_eq_ok.mp h
      cases h
      exact ⟨m, value, rest, rfl, hvalue, hrest, rfl⟩
    · rintro ⟨_, value, rest, rfl, hvalue, hrest, rfl⟩
      exact bind_eq_ok.mpr ⟨value, hvalue, bind_eq_ok.mpr ⟨rest, hrest, rfl⟩⟩

/-- The value of a member that is found is the first one of its name, read. -/
theorem lookup_of_decodeMembers (h : decodeMembers members fields = .ok found) {name : String}
    {m : Member} (hm : (members.find? fun m => m.name == name) = some m) {json : Json}
    (hjson : Fields.get? fields name = some json) :
    ∃ value, m.cell.decode json = .ok value ∧ found.lookup name = some value := by
  induction fields generalizing found with
  | nil => cases hjson
  | cons field fields ih =>
    obtain ⟨key, first⟩ := field
    by_cases hkey : name = key
    · subst hkey
      obtain rfl : first = json := Option.some.inj ((Fields.get?_cons_self ..).symm.trans hjson)
      rcases decodeMembers_cons.mp h with ⟨hnone, -⟩ | ⟨m', value, rest, hm', hvalue, -, rfl⟩
      · rw [hm] at hnone
        cases hnone
      · obtain rfl : m = m' := Option.some.inj (hm.symm.trans hm')
        exact ⟨value, hvalue, List.lookup_cons_self⟩
    · have hrest : Fields.get? fields name = some json := by
        simpa [Fields.get?, List.lookup_cons, beq_eq_false_iff_ne.mpr hkey] using hjson
      rcases decodeMembers_cons.mp h with ⟨-, hfound⟩ | ⟨m', value, rest, -, -, hfound, rfl⟩
      · exact ih hfound hrest
      · obtain ⟨value', hvalue', hlookup⟩ := ih hfound hrest
        refine ⟨value', hvalue', ?_⟩
        rw [List.lookup_cons, beq_eq_false_iff_ne.mpr hkey]
        exact hlookup

/-- The value of a member among those found, which is null if there is none. -/
def valueIn (found : List (String × Json)) (name : String) : Json :=
  (found.lookup name).getD .null

/-- The first of several members is collected with its value. -/
theorem collect_cons {m : Member} {values : List (String × Json)}
    (h : collect found (m :: members) = .ok values) :
    ∃ rest, collect found members = .ok rest ∧ values = (m.name, valueIn found m.name) :: rest := by
  have hvalue : (collect found members >>= fun rest =>
      .ok ((m.name, valueIn found m.name) :: rest)) = .ok values := by
    rw [collect] at h
    rw [valueIn]
    cases hlookup : found.lookup m.name with
    | some json =>
      rw [hlookup] at h
      exact h
    | none =>
      rw [hlookup] at h
      cases hoptional : m.cell.optional with
      | true =>
        rw [hoptional] at h
        exact h
      | false =>
        rw [hoptional] at h
        cases h
  obtain ⟨rest, hrest, h⟩ := bind_eq_ok.mp hvalue
  exact ⟨rest, hrest, (Except.ok.inj h).symm⟩

/-- Members are collected with their values. -/
theorem collect_eq_map {values : List (String × Json)} (h : collect found members = .ok values) :
    values = (members.map Member.name).map fun name => (name, valueIn found name) := by
  induction members generalizing values with
  | nil =>
    cases h
    rfl
  | cons m members ih =>
    obtain ⟨rest, hrest, rfl⟩ := collect_cons h
    rw [ih hrest]
    rfl

/-! ## A structure that is read back -/

/-- A structure that is read from an object holds the values of its members. -/
theorem decode_structure {title : String} {x : Datum}
    (h : (Shape.structure title members).decode (.object fields) = .ok x) :
    ∃ found, decodeMembers members fields = .ok found ∧
      x = .structure ((members.map Member.name).map fun name => (name, valueIn found name)) := by
  rw [decode] at h
  obtain ⟨found, hfound, h⟩ := bind_eq_ok.mp h
  obtain ⟨values, hvalues, h⟩ := bind_eq_ok.mp h
  cases h
  exact ⟨found, hfound, congrArg _ (collect_eq_map hvalues)⟩

/-- A member is found with the first value of its name, read. -/
theorem decode_valueIn (h : decodeMembers members fields = .ok found) {name : String} {m : Member}
    (hm : (members.find? fun m => m.name == name) = some m) {json : Json}
    (hjson : Fields.get? fields name = some json) :
    m.cell.decode json = .ok (valueIn found name) := by
  obtain ⟨value, hvalue, hlookup⟩ := lookup_of_decodeMembers h hm hjson
  rw [valueIn, hlookup]
  exact hvalue

/-- A name that a member has finds a member. -/
theorem exists_find?_of_mem {name : String} (h : name ∈ members.map Member.name) :
    ∃ m, (members.find? fun m => m.name == name) = some m := by
  obtain ⟨m, hm, rfl⟩ := List.mem_map.mp h
  exact Option.isSome_iff_exists.mp (List.find?_isSome.mpr ⟨m, hm, beq_self_eq_true m.name⟩)

/-- A member that is found under a name has it. -/
theorem mem_of_find? {name : String} {m : Member}
    (h : (members.find? fun m => m.name == name) = some m) : name ∈ members.map Member.name := by
  have hfound := List.find?_some h
  obtain rfl : m.name = name := by simpa using hfound
  exact List.mem_map_of_mem (List.mem_of_find?_eq_some h)

/-- The record of a structure. -/
def recordOf (members : List Member) (value : String → Json) : Fields Json :=
  Fields.ofList ((members.map Member.name).map fun name => (name, value name))

/-- A record holds under the name of a member what it was given for it. -/
theorem get?_recordOf (value : String → Json) {name : String} (h : name ∈ members.map Member.name) :
    Fields.get? (recordOf members value) name = some (value name) := by
  rw [recordOf, Fields.get?_ofList_map, if_pos h]

/-- A field of a record that is set is the value of a member that is changed. -/
theorem insert_recordOf {name : String} (hname : name ∈ members.map Member.name) (json : Json)
    (value : String → Json) : Fields.insert name json (recordOf members value) =
      recordOf members (Function.update value name json) := by
  refine Fields.IsSorted.ext ((Fields.isSorted_ofList _).insert _ _) (Fields.isSorted_ofList _) ?_
  intro other
  by_cases hother : other = name
  · subst hother
    rw [Fields.get?_insert_self, get?_recordOf _ hname, Function.update_self]
  · rw [Fields.get?_insert_of_ne _ _ hother, recordOf, recordOf, Fields.get?_ofList_map,
      Fields.get?_ofList_map, Function.update_of_ne hother]

variable {title : String} {record : Fields Json}

/-- Whether the members of a structure, but for one of them, read the values that are given for
them as they are. -/
def KeepsOthers (members : List Member) (name : String) (value : String → Json) : Prop :=
  ∀ other m, other ≠ name → (members.find? fun m => m.name == other) = some m →
    m.cell.decode (value other) = .ok (value other)

/-- A row of a structure that is read back is written with the members of the structure, and all of
them read their values as they are. -/
theorem exists_recordOf_of_row {x : Datum} (hx : x.toJson = .object record)
    (hback : (Shape.structure title members).decode (.object record) = .ok x) (name : String) :
    ∃ value, record = recordOf members value ∧ KeepsOthers members name value := by
  obtain ⟨found, hfound, rfl⟩ := decode_structure hback
  have hrecord : recordOf members (valueIn found) = record := Json.object.inj hx
  rw [← hrecord] at hfound
  refine ⟨valueIn found, hrecord.symm, fun other m _ hm => ?_⟩
  exact decode_valueIn hfound hm (get?_recordOf (valueIn found) (mem_of_find? hm))

/-- The fields of a structure are its members. -/
theorem mem_of_hasField {name : String}
    (h : (Shape.structure title members).rowType.HasField name) :
    name ∈ members.map Member.name := by
  obtain ⟨x, record, hx, hback, hname⟩ := h
  obtain ⟨value, rfl, -⟩ :=
    exists_recordOf_of_row (encode_rowType.mp hx) (decode_rowType.mp hback) name
  by_contra hnot
  rw [recordOf, Fields.get?_ofList_map, if_neg hnot] at hname
  cases hname

/-- The forms of a structure at a field have its members, and all others read their values as they
are. -/
theorem exists_recordOf_of_form {name : String}
    (h : (Shape.structure title members).rowType.Form name record) :
    ∃ value, record = recordOf members value ∧ KeepsOthers members name value := by
  induction h with
  | row hx hback =>
    exact exists_recordOf_of_row (encode_rowType.mp hx) (decode_rowType.mp hback) name
  | set json _ hname ih =>
    obtain ⟨value, rfl, hkeeps⟩ := ih
    refine ⟨_, insert_recordOf (mem_of_hasField hname) json value, fun other m hother hm => ?_⟩
    rw [Function.update_of_ne hother]
    exact hkeeps other m hother hm

/-- What a structure reads has the values that were there, if all members but one read theirs as
they are and that one is exact. -/
theorem toJson_of_decode_recordOf {name : String}
    (hexact : (Shape.structure title members).isExact name = true) {value : String → Json}
    (hkeeps : KeepsOthers members name value) {y : Datum}
    (h : (Shape.structure title members).decode (.object (recordOf members value)) = .ok y) :
    y.toJson = .object (recordOf members value) := by
  obtain ⟨found, hfound, rfl⟩ := decode_structure h
  have hvalues : ∀ other ∈ members.map Member.name, valueIn found other = value other := by
    intro other hother
    obtain ⟨m, hm⟩ := exists_find?_of_mem hother
    have hread := decode_valueIn hfound hm (get?_recordOf value hother)
    by_cases hname : other = name
    · subst hname
      rw [isExact, hm] at hexact
      exact Cell.eq_of_decode hexact hread
    · exact Except.ok.inj (hread.symm.trans (hkeeps other m hname hm))
  have hmembers : ((members.map Member.name).map fun name => (name, valueIn found name)) =
      (members.map Member.name).map fun name => (name, value name) :=
    List.map_congr_left fun name hname => by rw [hvalues name hname]
  rw [hmembers]
  rfl

/-- The JSON form of the rows of a shape round-trips at a field that the shape keeps as it is
read. -/
theorem roundTrips {s : Shape} {name : String} (h : s.isExact name = true) :
    s.rowType.RoundTrips name := by
  intro record y hform hy
  refine encode_rowType.mpr ?_
  rcases s with c | ⟨title, members⟩
  · obtain rfl := decode_cell (decode_rowType.mp hy)
    rfl
  · obtain ⟨value, rfl, hkeeps⟩ := exists_recordOf_of_form hform
    exact toJson_of_decode_recordOf h hkeeps (decode_rowType.mp hy)

/-! ## Fields at which a shape does not round-trip -/

/-- The members of an object are read if the value of each of them is. -/
theorem exists_decodeMembers (h : ∀ field ∈ fields, ∀ m,
    (members.find? fun m => m.name == field.1) = some m →
      ∃ value, m.cell.decode field.2 = .ok value) :
    ∃ found, decodeMembers members fields = .ok found := by
  induction fields with
  | nil => exact ⟨[], rfl⟩
  | cons field fields ih =>
    obtain ⟨name, json⟩ := field
    obtain ⟨hfirst, hrest⟩ := List.forall_mem_cons.mp h
    obtain ⟨found, hfound⟩ := ih hrest
    cases hm : members.find? fun m => m.name == name with
    | none => exact ⟨found, decodeMembers_cons.mpr (.inl ⟨hm, hfound⟩)⟩
    | some m =>
      obtain ⟨value, hvalue⟩ := hfirst m hm
      exact ⟨_, decodeMembers_cons.mpr (.inr ⟨m, value, found, hm, hvalue, hfound, rfl⟩)⟩

/-- Members are collected if each of them was met. -/
theorem exists_collect (h : ∀ m ∈ members, ∃ json, found.lookup m.name = some json) :
    ∃ values, collect found members = .ok values := by
  induction members with
  | nil => exact ⟨[], rfl⟩
  | cons m members ih =>
    obtain ⟨⟨json, hjson⟩, hrest⟩ := List.forall_mem_cons.mp h
    obtain ⟨values, hvalues⟩ := ih hrest
    rw [collect, hjson, hvalues]
    exact ⟨_, rfl⟩

/-- A structure reads a record of its members if each of them reads its value. -/
theorem exists_decode_recordOf {value : String → Json}
    (h : ∀ name m, (members.find? fun m => m.name == name) = some m →
      ∃ w, m.cell.decode (value name) = .ok w) :
    ∃ y, (Shape.structure title members).decode (.object (recordOf members value)) = .ok y := by
  have hfields : ∀ field ∈ recordOf members value, ∀ m,
      (members.find? fun m => m.name == field.1) = some m →
        ∃ w, m.cell.decode field.2 = .ok w := by
    intro field hfield m hm
    obtain ⟨name, -, rfl⟩ := List.mem_map.mp (Fields.mem_ofList field hfield)
    exact h name m hm
  obtain ⟨found, hfound⟩ := exists_decodeMembers hfields
  have hmet : ∀ m ∈ members, ∃ json, found.lookup m.name = some json := by
    intro m hm
    have hname := List.mem_map_of_mem (f := Member.name) hm
    obtain ⟨m', hm'⟩ := exists_find?_of_mem hname
    obtain ⟨json, -, hjson⟩ := lookup_of_decodeMembers hfound hm' (get?_recordOf value hname)
    exact ⟨json, hjson⟩
  obtain ⟨values, hvalues⟩ := exists_collect hmet
  rw [decode, hfound]
  exact ⟨_, congrArg (Except.map Datum.structure) hvalues⟩

/-- The JSON form of the rows of a shape round-trips at one of their fields exactly if the shape
keeps the field as it is read. At a floating-point number it does not: zero as an integer is read,
and written as a floating-point number. -/
theorem roundTrips_iff {s : Shape} {name : String} (hname : s.rowType.HasField name) :
    s.rowType.RoundTrips name ↔ s.isExact name = true := by
  refine ⟨fun h => ?_, roundTrips⟩
  rcases s with c | ⟨title, members⟩
  · rfl
  obtain ⟨x, record, hx, hback, hfound⟩ := id hname
  have hform := RowType.Form.set (.ofInt64 0) (.row hx hback) hname
  obtain ⟨value, hrecord, hkeeps⟩ := exists_recordOf_of_form hform
  have hmem := mem_of_hasField hname
  have hzero : value name = .ofInt64 0 := by
    have hget := get?_recordOf value hmem
    rw [← hrecord, Fields.get?_insert_self] at hget
    exact (Option.some.inj hget).symm
  rw [isExact, Option.all_eq_true]
  intro m hm
  by_contra hexact
  obtain ⟨w, hw, hne⟩ := Cell.exists_decode_of_not_exact hexact 0
  have hreads : ∀ other m', (members.find? fun m => m.name == other) = some m' →
      ∃ w, m'.cell.decode (value other) = .ok w := by
    intro other m' hm'
    by_cases hother : other = name
    · subst hother
      obtain rfl := Option.some.inj (hm.symm.trans hm')
      exact ⟨w, hzero ▸ hw⟩
    · exact ⟨_, hkeeps other m' hother hm'⟩
  obtain ⟨y, hy⟩ : ∃ y, (Shape.structure title members).decode (.object (recordOf members value)) =
      .ok y := exists_decode_recordOf hreads
  obtain ⟨found, hdecoded, rfl⟩ := decode_structure hy
  have hread := decode_valueIn hdecoded hm (get?_recordOf value hmem)
  have hwritten : recordOf members (valueIn found) = recordOf members value := by
    have hencode := h _ _ hform (decode_rowType.mpr (hrecord ▸ hy))
    rw [hrecord] at hencode
    exact Json.object.inj (encode_rowType.mp hencode)
  have hkept : valueIn found name = value name := by
    have hget := get?_recordOf (valueIn found) hmem
    rw [hwritten, get?_recordOf value hmem] at hget
    exact (Option.some.inj hget).symm
  rw [hkept, hzero, hw] at hread
  exact hne (Except.ok.inj hread)

end Shape

end SqlCompose
